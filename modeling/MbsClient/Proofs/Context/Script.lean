import Mathlib.Data.List.Infix
import MbsClient.Proofs.Context.Run
import MbsClient.Proofs.Data.Entries
import MbsClient.Proofs.Session.Move

/-!
# Scripts — actions as sequences of moves of single sessions

Of a context, the sessions and what has been emitted count here; the indices only decide which
session is to move. `view_act` says once what each action does, so an invariant of sessions and
intents has to be looked at move by move only.
-/

namespace MbsClient

/-- One step of an action. -/
inductive Transition where
  /-- A new session takes the next key. -/
  | opened
  /-- A session moves, if there is one under the key. -/
  | moved (key : SessionKey) (m : Session.Move)
  /-- What was created for nobody is removed. -/
  | orphaned (intents : List Intent)

/-- The sessions of a context and all that has been emitted. -/
structure View where
  sessions : SortedMap SessionKey Session := .empty
  nextSession : SessionKey := 1
  emitted : List Intent := []

namespace View

/-- A session takes the place of the one under the key, or leaves it empty. -/
def put (v : View) (key : SessionKey) (s : Option Session) (intents : List Intent) : View :=
  { v with
    sessions := match s with
      | some s => v.sessions.insert key s
      | none => v.sessions.erase key
    emitted := v.emitted ++ intents }

def apply (v : View) : Transition → View
  | .opened =>
      { v with
        sessions := v.sessions.insert v.nextSession { key := v.nextSession }
        nextSession := v.nextSession + 1 }
  | .moved key m =>
      match v.sessions.get? key with
      | some s => v.put key (s.moved m).1 (s.moved m).2
      | none => v
  | .orphaned intents => { v with emitted := v.emitted ++ intents }

/-- Sessions lie under their own keys, all of which have been handed out. -/
structure Keyed (v : View) : Prop where
  own : ∀ {key s}, v.sessions.get? key = some s → s.key = key
  below : ∀ {key s}, v.sessions.get? key = some s → key < v.nextSession

end View

/-! ## 1. The script of an action -/

namespace Context

/-- The session that holds a subscription moves. -/
def ownerMoves (c : Context) (key : SubscriptionKey) (m : Session.Move) : List Transition :=
  match c.owners.get? key with
  | some owner => [.moved owner m]
  | none => []

/-- The moves of a transfer. -/
def transferMoves (c : Context) (key : SubscriptionKey) (target : SessionKey) : List Transition :=
  match c.owners.get? key, c.session? target with
  | some owner, some _ =>
      match (c.session? owner).bind fun s => s.detach? key with
      | some (sub, _) => [.moved owner (.letGo key), .moved target (.takeOver sub)]
      | none => []
  | _, _ => []

/-- The answer to a creation moves the session that waits for it. What was created for a session
that does not wait is an orphan. -/
def sessionCreatedMoves (c : Context) (key : SessionKey)
    (result : Except ProblemDetails SessionCreated) : List Transition :=
  match result with
  | .ok answer =>
      if ((c.session? key).bind Session.waitingFor?).isSome then [.moved key (.created answer)]
      else [.orphaned (removeOrphan key (.ok answer))]
  | .error problem => [.moved key (.refused problem)]

def subscriptionCreatedMoves (c : Context) (key : SubscriptionKey)
    (result : Except OperationResult SubscriptionAck) : List Transition :=
  match result with
  | .ok ack =>
      if (((c.owners.get? key).bind c.session?).bind
          (·.subscriptionCreated? key (.ok ack))).isSome then
        c.ownerMoves key (.subscriptionCreated key (.ok ack))
      else [.orphaned [.deleteSubscription ack.id]]
  | .error failure => c.ownerMoves key (.subscriptionCreated key (.error failure))

def handleMoves (c : Context) : TransportEvent → List Transition
  | .createResult session result => c.sessionCreatedMoves session result
  | .patchResult session (.ok ()) => [.moved session (.patched .ok)]
  | .patchResult session (.error problem) => [.moved session (.patched (.refused problem))]
  | .subscriptionCreated sub result => c.subscriptionCreatedMoves sub (result.mapError .refused)
  | .subscriptionUpdated sub result =>
      c.ownerMoves sub (.subscriptionUpdated sub (result.mapError .refused))
  | .timeout (.createResource session) => [.moved session .timedOut]
  | .timeout (.patchResource session) => [.moved session (.patched .timedOut)]
  | .timeout (.createSubscription sub) => c.subscriptionCreatedMoves sub (.error .timedOut)
  | .timeout (.updateSubscription sub) =>
      c.ownerMoves sub (.subscriptionUpdated sub (.error .timedOut))

/-- The steps of an action. -/
def script (c : Context) : Action → List Transition
  | .newSession => if c.config.maxSessions ≤ c.sessions.size then [] else [.opened]
  | .watchSession key => [.moved key .watch]
  | .changeSession key change => [.moved key (.change change)]
  | .deleteSession key => [.moved key .markDeleted]
  | .addSubscription session data =>
      [.moved session (.takeOver (.new c.nextSubscription session data))]
  | .updateSubscription key changes => c.ownerMoves key (.modify key changes)
  | .removeSubscription key => c.ownerMoves key (.withdraw key)
  | .transferSubscription key target => c.transferMoves key target
  | .push key => [.moved key (.push c.config)]
  | .pushAll => c.sessions.keys.map fun key => .moved key (.push c.config)
  | .close => c.sessions.keys.map fun key => .moved key .release
  | .takeIntents => []
  | .event e => c.handleMoves e

theorem script_confirmed (c : Context) (key : SubscriptionKey) (ack : SubscriptionAck) :
    c.script (.event (.subscriptionCreated key (.ok ack))) =
      c.subscriptionCreatedMoves key (.ok ack) := rfl

end Context

/-- The session whose patch is answered, and how. -/
def Action.patchAnswer? : Action → Option (SessionKey × OperationResult)
  | .event (.patchResult key (.ok ())) => some (key, .ok)
  | .event (.patchResult key (.error problem)) => some (key, .refused problem)
  | .event (.timeout (.patchResource key)) => some (key, .timedOut)
  | _ => none

/-- The steps that an action can have. -/
inductive Action.Makes (config : ClientConfig) : Action → Transition → Prop
  | opened : Makes config .newSession .opened
  | watched {key} : Makes config (.watchSession key) (.moved key .watch)
  | changed {key c} : Makes config (.changeSession key c) (.moved key (.change c))
  | deleted {key} : Makes config (.deleteSession key) (.moved key .markDeleted)
  | added {key data sub} : Makes config (.addSubscription key data) (.moved key (.takeOver sub))
  | modified {sub changes key} :
      Makes config (.updateSubscription sub changes) (.moved key (.modify sub changes))
  | withdrawn {sub key} : Makes config (.removeSubscription sub) (.moved key (.withdraw sub))
  | letGo {sub target key} :
      Makes config (.transferSubscription sub target) (.moved key (.letGo sub))
  | takenOver {key target sub} :
      Makes config (.transferSubscription key target) (.moved target (.takeOver sub))
  | pushed {key} : Makes config (.push key) (.moved key (.push config))
  | allPushed {key} : Makes config .pushAll (.moved key (.push config))
  | closed {key} : Makes config .close (.moved key .release)
  | created {key answer} :
      Makes config (.event (.createResult key (.ok answer))) (.moved key (.created answer))
  | abandoned {key answer} : Makes config (.event (.createResult key (.ok answer)))
      (.orphaned (Context.removeOrphan key (.ok answer)))
  | refused {key problem} :
      Makes config (.event (.createResult key (.error problem))) (.moved key (.refused problem))
  | timedOut {key} :
      Makes config (.event (.timeout (.createResource key))) (.moved key .timedOut)
  | patched {a key result} (hanswer : a.patchAnswer? = some (key, result)) :
      Makes config a (.moved key (.patched result))
  | confirmed {sub ack key} : Makes config (.event (.subscriptionCreated sub (.ok ack)))
      (.moved key (.subscriptionCreated sub (.ok ack)))
  | unclaimed {sub ack} : Makes config (.event (.subscriptionCreated sub (.ok ack)))
      (.orphaned [.deleteSubscription ack.id])
  | failed {e sub failure key} :
      Makes config (.event e) (.moved key (.subscriptionCreated sub (.error failure)))
  | updated {e sub result key} :
      Makes config (.event e) (.moved key (.subscriptionUpdated sub result))

-- What is sent for nobody only takes down what was created.
theorem Action.Makes.orphans {config : ClientConfig} {a : Action} {intents : List Intent}
    (h : a.Makes config (.orphaned intents)) : ∀ i ∈ intents,
      (∃ key id, i = .removeResource key id) ∨ ∃ id, i = .deleteSubscription id := by
  intro i hi
  cases h with
  | abandoned =>
    rcases List.mem_cons.1 hi with rfl | hi
    · exact .inl ⟨_, _, rfl⟩
    · obtain ⟨id, -, rfl⟩ := List.mem_map.1 hi
      exact .inr ⟨id, rfl⟩
  | unclaimed => exact .inr ⟨_, List.mem_singleton.1 hi⟩

namespace Context

variable {c : Context} {t : Transition}

theorem mem_ownerMoves {key : SubscriptionKey} {m : Session.Move} (h : t ∈ c.ownerMoves key m) :
    ∃ owner, t = .moved owner m := by
  unfold ownerMoves at h
  split at h
  · exact ⟨_, List.mem_singleton.1 h⟩
  · simp at h

theorem makes_of_mem_subscriptionCreatedMoves {key : SubscriptionKey} {ack : SubscriptionAck}
    (h : t ∈ c.subscriptionCreatedMoves key (.ok ack)) :
    Action.Makes c.config (.event (.subscriptionCreated key (.ok ack))) t := by
  simp only [subscriptionCreatedMoves] at h
  split at h
  · obtain ⟨owner, rfl⟩ := mem_ownerMoves h
    exact .confirmed
  · rw [List.mem_singleton.1 h]
    exact .unclaimed

theorem makes_of_mem_handleMoves {e : TransportEvent} (h : t ∈ c.handleMoves e) :
    Action.Makes c.config (.event e) t := by
  cases e with
  | createResult key result =>
    cases result with
    | ok answer =>
      simp only [handleMoves, sessionCreatedMoves] at h
      split at h
      · rw [List.mem_singleton.1 h]
        exact .created
      · rw [List.mem_singleton.1 h]
        exact .abandoned
    | error problem =>
      rw [List.mem_singleton.1 h]
      exact .refused
  | patchResult key result =>
    cases result with
    | ok u =>
      rw [List.mem_singleton.1 h]
      exact .patched rfl
    | error problem =>
      rw [List.mem_singleton.1 h]
      exact .patched rfl
  | subscriptionCreated key result =>
    cases result with
    | ok ack => exact makes_of_mem_subscriptionCreatedMoves h
    | error problem =>
      obtain ⟨owner, rfl⟩ := mem_ownerMoves h
      exact .failed
  | subscriptionUpdated key result =>
    obtain ⟨owner, rfl⟩ := mem_ownerMoves h
    exact .updated
  | timeout target =>
    cases target with
    | createResource key =>
      rw [List.mem_singleton.1 h]
      exact .timedOut
    | patchResource key =>
      rw [List.mem_singleton.1 h]
      exact .patched rfl
    | createSubscription key =>
      obtain ⟨owner, rfl⟩ := mem_ownerMoves h
      exact .failed
    | updateSubscription key =>
      obtain ⟨owner, rfl⟩ := mem_ownerMoves h
      exact .updated

-- The steps of a script are among those that the action can have.
theorem makes_of_mem_script {a : Action} (h : t ∈ c.script a) : a.Makes c.config t := by
  cases a with
  | newSession =>
    simp only [script] at h
    split at h
    · simp at h
    · rw [List.mem_singleton.1 h]
      exact .opened
  | watchSession key =>
    rw [List.mem_singleton.1 h]
    exact .watched
  | changeSession key change =>
    rw [List.mem_singleton.1 h]
    exact .changed
  | deleteSession key =>
    rw [List.mem_singleton.1 h]
    exact .deleted
  | addSubscription session data =>
    rw [List.mem_singleton.1 h]
    exact .added
  | updateSubscription key changes =>
    obtain ⟨owner, rfl⟩ := mem_ownerMoves h
    exact .modified
  | removeSubscription key =>
    obtain ⟨owner, rfl⟩ := mem_ownerMoves h
    exact .withdrawn
  | transferSubscription key target =>
    simp only [script, transferMoves] at h
    split at h
    · split at h
      · rcases List.mem_cons.1 h with rfl | h
        · exact .letGo
        · rw [List.mem_singleton.1 h]
          exact .takenOver
      · simp at h
    · simp at h
  | push key =>
    rw [List.mem_singleton.1 h]
    exact .pushed
  | pushAll =>
    obtain ⟨key, -, rfl⟩ := List.mem_map.1 h
    exact .allPushed
  | close =>
    obtain ⟨key, -, rfl⟩ := List.mem_map.1 h
    exact .closed
  | takeIntents => simp [script] at h
  | event e => exact makes_of_mem_handleMoves h

end Context

/-! ## 2. What a script does is what the action does -/

namespace Context

/-- The view of a context of which some intents have been taken before. -/
def view (c : Context) (taken : List Intent) : View :=
  ⟨c.sessions, c.nextSession, taken ++ c.outbox⟩

theorem session_of_get? {c : Context} {key : SessionKey} {s : Session}
    (h : c.sessions.get? key = some s) : c.session key = .ok s := by
  simp [session, session?, h]

theorem session_of_get?_none {c : Context} {key : SessionKey}
    (h : c.sessions.get? key = none) : c.session key = .error (.sessionNotFound key) := by
  simp [session, session?, h]

end Context

namespace View

theorem apply_moved {v : View} {key : SessionKey} {s : Session} (h : v.sessions.get? key = some s)
    (m : Session.Move) : v.apply (.moved key m) = v.put key (s.moved m).1 (s.moved m).2 := by
  simp [apply, h]

theorem apply_moved_none {v : View} {key : SessionKey} (h : v.sessions.get? key = none)
    (m : Session.Move) : v.apply (.moved key m) = v := by
  simp [apply, h]

-- A session put back as it was.
theorem put_self {v : View} {key : SessionKey} {s : Session} (h : v.sessions.get? key = some s) :
    v.put key (some s) [] = v := by
  have hsame : v.sessions.insert key s = v.sessions := by
    apply SortedMap.ext_get?
    intro k
    by_cases hk : k = key
    · rw [hk, SortedMap.get?_insert_self, h]
    · rw [SortedMap.get?_insert_of_ne _ hk]
  simp [put, hsame]

-- The session under a key after another has been put somewhere.
theorem get?_put {v : View} {key k : SessionKey} {s? : Option Session} {intents : List Intent}
    {t : Session} (h : (v.put key s? intents).sessions.get? k = some t) :
    (k = key ∧ s? = some t) ∨ (k ≠ key ∧ v.sessions.get? k = some t) := by
  by_cases hk : k = key
  · refine .inl ⟨hk, ?_⟩
    rw [hk] at h
    cases s? with
    | none => simp [put] at h
    | some s' => simpa [put] using h
  · refine .inr ⟨hk, ?_⟩
    cases s? with
    | none =>
      simp only [put] at h
      rwa [SortedMap.get?_erase_of_ne _ hk] at h
    | some s' =>
      simp only [put] at h
      rwa [SortedMap.get?_insert_of_ne _ hk] at h

theorem get?_put_self (v : View) (key : SessionKey) (s : Session) (intents : List Intent) :
    (v.put key (some s) intents).sessions.get? key = some s :=
  SortedMap.get?_insert_self _ _ _

theorem get?_put_of_ne (v : View) {key key' : SessionKey} (hk : key' ≠ key)
    (s? : Option Session) (intents : List Intent) :
    (v.put key s? intents).sessions.get? key' = v.sessions.get? key' := by
  cases s? with
  | none => exact SortedMap.get?_erase_of_ne _ hk
  | some s => exact SortedMap.get?_insert_of_ne _ hk _

theorem get?_apply_moved (v : View) (key : SessionKey) (m : Session.Move) (k : SessionKey) :
    (v.apply (.moved key m)).sessions.get? k =
      if k = key then (v.sessions.get? key).bind fun s => (s.moved m).1
      else v.sessions.get? k := by
  cases h : v.sessions.get? key with
  | none =>
    rw [apply_moved_none h]
    split
    · rename_i hk
      rw [hk, h]
      rfl
    · rfl
  | some s =>
    rw [apply_moved h]
    split
    · rename_i hk
      rw [hk, Option.bind_some]
      cases (s.moved m).1 with
      | none => exact SortedMap.get?_erase_self _ _
      | some s' => exact get?_put_self v key s' _
    · rename_i hk
      exact get?_put_of_ne v hk _ _

/-- Where a session comes from that is there after a step. -/
inductive SessionFrom (v : View) (key : SessionKey) (s' : Session) : Transition → Prop
  | kept {t : Transition} (hs : v.sessions.get? key = some s') (hother : ∀ m, t ≠ .moved key m) :
      SessionFrom v key s' t
  | opened (hkey : key = v.nextSession) (hs : s' = { key }) : SessionFrom v key s' .opened
  | moved {s : Session} {m : Session.Move} (hs : v.sessions.get? key = some s)
      (hm : (s.moved m).1 = some s') : SessionFrom v key s' (.moved key m)

theorem sessionFrom {v : View} {key : SessionKey} {s' : Session} {t : Transition}
    (h : (v.apply t).sessions.get? key = some s') : v.SessionFrom key s' t := by
  cases t with
  | opened =>
    simp only [apply] at h
    by_cases hkey : key = v.nextSession
    · rw [hkey, SortedMap.get?_insert_self] at h
      exact .opened hkey (by rw [hkey, ← Option.some.inj h])
    · rw [SortedMap.get?_insert_of_ne _ hkey] at h
      exact .kept h fun m => Transition.noConfusion
  | moved k m =>
    rw [get?_apply_moved] at h
    split at h
    · rename_i hk
      obtain ⟨s, hs, hm⟩ := Option.bind_eq_some_iff.1 h
      subst hk
      exact .moved hs hm
    · rename_i hk
      refine .kept h fun m' heq => hk ?_
      injection heq with hkey
      exact hkey.symm
  | orphaned intents => exact .kept h fun m => Transition.noConfusion

theorem nextSession_le_apply (v : View) (t : Transition) :
    v.nextSession ≤ (v.apply t).nextSession := by
  cases t with
  | opened => exact Nat.le_succ _
  | moved key m =>
    simp only [apply]
    split <;> exact Nat.le_refl _
  | orphaned intents => exact Nat.le_refl _

-- A step leaves a session as it is, or it is a move of the session.
theorem get?_apply {v : View} {key : SessionKey} {s : Session} (hs : v.sessions.get? key = some s)
    (hbelow : key < v.nextSession) (t : Transition) :
    (v.apply t).sessions.get? key = some s ∨
      ∃ m, t = .moved key m ∧ (v.apply t).sessions.get? key = (s.moved m).1 := by
  cases t with
  | opened => exact .inl ((SortedMap.get?_insert_of_ne _ (Nat.ne_of_lt hbelow) _).trans hs)
  | moved k m =>
    rw [get?_apply_moved]
    split
    · rename_i hk
      rw [← hk, hs]
      exact .inr ⟨m, rfl, rfl⟩
    · exact .inl hs
  | orphaned intents => exact .inl hs

theorem keyed_apply {v : View} (hk : v.Keyed) (t : Transition) : (v.apply t).Keyed where
  own h := by
    cases sessionFrom h with
    | kept hs => exact hk.own hs
    | opened hkey hs => rw [hs]
    | moved hs hm => rw [Session.key_of_moved hm, hk.own hs]
  below h := by
    have hle := nextSession_le_apply v t
    cases sessionFrom h with
    | kept hs => exact Nat.lt_of_lt_of_le (hk.below hs) hle
    | opened hkey => exact hkey ▸ Nat.lt_succ_self _
    | moved hs => exact Nat.lt_of_lt_of_le (hk.below hs) hle

theorem keyed_foldl {v : View} (hk : v.Keyed) (ts : List Transition) :
    (ts.foldl apply v).Keyed := by
  induction ts generalizing v with
  | nil => exact hk
  | cons t ts ih => exact ih (keyed_apply hk t)

/-- What a step emits. -/
def sends (v : View) : Transition → List Intent
  | .opened => []
  | .moved key m =>
      match v.sessions.get? key with
      | some s => (s.moved m).2
      | none => []
  | .orphaned intents => intents

theorem emitted_apply_eq (v : View) (t : Transition) :
    (v.apply t).emitted = v.emitted ++ v.sends t := by
  cases t with
  | opened => rw [sends, List.append_nil]; rfl
  | moved key m =>
    cases h : v.sessions.get? key with
    | none => rw [apply_moved_none h, sends, h, List.append_nil]
    | some s => rw [apply_moved h, sends, h]; rfl
  | orphaned intents => rfl

/-- Where a request comes from that is sent in a step. -/
inductive SentBy (v : View) (i : Intent) : Transition → Prop
  | moved {key : SessionKey} {s : Session} {m : Session.Move} (hs : v.sessions.get? key = some s)
      (hi : i ∈ (s.moved m).2) : SentBy v i (.moved key m)
  | orphaned {intents : List Intent} (hi : i ∈ intents) : SentBy v i (.orphaned intents)

theorem sentBy {v : View} {i : Intent} {t : Transition} (hi : i ∈ v.sends t) : v.SentBy i t := by
  cases t with
  | opened => cases hi
  | moved key m =>
    simp only [sends] at hi
    split at hi
    · rename_i s hs
      exact .moved hs hi
    · cases hi
  | orphaned intents => exact .orphaned hi

-- What has been emitted stays.
theorem emitted_apply (v : View) (t : Transition) : v.emitted <+: (v.apply t).emitted := by
  rw [emitted_apply_eq]
  exact List.prefix_append _ _

theorem emitted_foldl (v : View) (ts : List Transition) :
    v.emitted <+: (ts.foldl apply v).emitted := by
  induction ts generalizing v with
  | nil => exact List.prefix_rfl
  | cons t ts ih => exact (emitted_apply v t).trans (ih (v.apply t))

end View

namespace Context

variable {c : Context} {taken : List Intent}

-- A session stored under its own key.
theorem view_store {key : SessionKey} {s : Session} (hs : s.key = key) :
    (c.store s).view taken = (c.view taken).put key (some s) [] := by
  simp [view, store, View.put, hs]

theorem view_newSession :
    (c.act .newSession).view taken = (c.script .newSession).foldl View.apply (c.view taken) := by
  simp only [act, newSession, script]
  split
  · rfl
  · rfl

theorem view_watchSession (hk : (c.view taken).Keyed) (key : SessionKey) :
    (c.act (.watchSession key)).view taken = (c.view taken).apply (.moved key .watch) := by
  cases h : c.sessions.get? key with
  | none =>
    rw [View.apply_moved_none h]
    simp only [act, watchSession, session_of_get?_none h]
    rfl
  | some s =>
    rw [View.apply_moved h]
    have hown : s.key = key := hk.own h
    simp only [act, watchSession, session_of_get? h]
    exact view_store hown

theorem view_changeSession (hk : (c.view taken).Keyed) (key : SessionKey) (change : SessionChange) :
    (c.act (.changeSession key change)).view taken =
      (c.view taken).apply (.moved key (.change change)) := by
  cases h : c.sessions.get? key with
  | none =>
    rw [View.apply_moved_none h]
    simp only [act, changeSession, session_of_get?_none h]
    rfl
  | some s =>
    rw [View.apply_moved h]
    simp only [act, changeSession, session_of_get? h, Session.moved]
    cases hc : s.change change with
    | error e =>
      rw [show Except.toOption (Except.error e : Except Error Session) = none from rfl,
        Option.getD_none, View.put_self h]
      simp only [bind, Except.bind, hc]
      rfl
    | ok t =>
      simp only [bind, Except.bind, hc]
      exact view_store ((Session.key_of_change hc).trans (hk.own h))

theorem view_deleteSession (hk : (c.view taken).Keyed) (key : SessionKey) :
    (c.act (.deleteSession key)).view taken = (c.view taken).apply (.moved key .markDeleted) := by
  cases h : c.sessions.get? key with
  | none =>
    rw [View.apply_moved_none h]
    simp only [act, deleteSession, session_of_get?_none h]
    rfl
  | some s =>
    rw [View.apply_moved h]
    have hown : s.key = key := hk.own h
    simp only [act, deleteSession, session_of_get? h]
    exact view_store hown

theorem act_addSubscription_of_none {key : SessionKey} (h : c.sessions.get? key = none)
    (data : MbsSessionSubscription) : c.act (.addSubscription key data) = c := by
  simp only [act, addSubscription, session_of_get?_none h]
  rfl

-- A subscription that is new has nothing to forget.
theorem view_addSubscription (hk : (c.view taken).Keyed) (key : SessionKey)
    (data : MbsSessionSubscription) :
    (c.act (.addSubscription key data)).view taken =
      (c.view taken).apply (.moved key (.takeOver (.new c.nextSubscription key data))) := by
  cases h : c.sessions.get? key with
  | none =>
    rw [View.apply_moved_none h, act_addSubscription_of_none h]
  | some s =>
    rw [View.apply_moved h]
    have hown : s.key = key := hk.own h
    simp only [act, addSubscription, session_of_get? h]
    exact view_store hown

/-! ### Subscriptions, found through their owners -/

theorem view_updateSubscription (hk : (c.view taken).Keyed) (key : SubscriptionKey)
    (changes : List SubscriptionChange) :
    (c.act (.updateSubscription key changes)).view taken =
      (c.script (.updateSubscription key changes)).foldl View.apply (c.view taken) := by
  simp only [act, updateSubscription, script, ownerMoves, owner]
  cases ho : c.owners.get? key with
  | none => rfl
  | some o =>
    simp only [bind, Except.bind, List.foldl_cons, List.foldl_nil]
    cases h : c.sessions.get? o with
    | none =>
      rw [View.apply_moved_none h, session_of_get?_none h]
      rfl
    | some s =>
      have hown : s.key = o := hk.own h
      rw [View.apply_moved h, session_of_get? h, Session.moved]
      simp only
      split
      · rw [View.put_self h]
        rfl
      · exact view_store hown

theorem view_removeSubscription (hk : (c.view taken).Keyed) (key : SubscriptionKey) :
    (c.act (.removeSubscription key)).view taken =
      (c.script (.removeSubscription key)).foldl View.apply (c.view taken) := by
  simp only [act, removeSubscription, script, ownerMoves, owner]
  cases ho : c.owners.get? key with
  | none => rfl
  | some o =>
    simp only [bind, Except.bind, List.foldl_cons, List.foldl_nil]
    cases h : c.sessions.get? o with
    | none =>
      rw [View.apply_moved_none h, session_of_get?_none h]
      rfl
    | some s =>
      rw [View.apply_moved h, session_of_get? h, Session.moved]
      simp only
      cases hr : s.removeSubscription key with
      | error e =>
        rw [show Except.toOption (Except.error e : Except Error Session) = none from rfl,
          Option.getD_none, View.put_self h]
        rfl
      | ok t =>
        have hstore : (c.store t).view taken = (c.view taken).put o (some t) [] :=
          view_store ((Session.key_of_removeSubscription hr).trans (hk.own h))
        rw [show (Except.ok t : Except Error Session).toOption.getD s = t from rfl, ← hstore]
        simp only
        split <;> rfl

-- A transfer fails, or the holder lets go of the subscription and the target takes it over.
theorem transferSubscription_cases (c : Context) (key : SubscriptionKey) (target : SessionKey) :
    (∃ e, c.transferSubscription key target = .error e ∧ c.transferMoves key target = []) ∨
      ∃ o s sub holder t, c.sessions.get? o = some s ∧ s.detach? key = some (sub, holder) ∧
        (c.sessions.insert holder.key holder).get? target = some t ∧
        c.transferMoves key target = [.moved o (.letGo key), .moved target (.takeOver sub)] ∧
        c.transferSubscription key target =
          .ok { ((c.emit (sub.id.toList.map .deleteSubscription)).store holder).store
                  (t.attach sub.forgetRemote) with owners := c.owners.insert key target } := by
  simp only [transferSubscription, owner, transferMoves, session?, bind, Except.bind]
  cases ho : c.owners.get? key with
  | none => exact .inl ⟨_, rfl, rfl⟩
  | some o =>
    cases hs : c.sessions.get? o with
    | none =>
      simp only [session_of_get?_none hs]
      cases c.sessions.get? target with
      | none => exact .inl ⟨_, rfl, rfl⟩
      | some t => exact .inl ⟨_, rfl, by simp only [hs, Option.bind_none]⟩
    | some s =>
      cases ht : c.sessions.get? target with
      | none =>
        simp only [session_of_get? hs, session_of_get?_none ht]
        exact .inl ⟨_, rfl, trivial⟩
      | some t =>
        cases hd : s.detach? key with
        | none =>
          simp only [session_of_get? hs, session_of_get? ht, hs, hd, Option.bind_some]
          exact .inl ⟨_, rfl, trivial⟩
        | some p =>
          obtain ⟨sub, holder⟩ := p
          -- the target is looked up again, since it may be the holder itself
          obtain ⟨t', ht'⟩ : ∃ t', (c.sessions.insert holder.key holder).get? target = some t' := by
            by_cases heq : target = holder.key
            · exact ⟨holder, by rw [heq, SortedMap.get?_insert_self]⟩
            · exact ⟨t, by rw [SortedMap.get?_insert_of_ne _ heq, ht]⟩
          have hsecond : ((c.emit (sub.id.toList.map .deleteSubscription)).store holder).session
              target = .ok t' := session_of_get? ht'
          refine .inr ⟨o, s, sub, holder, t', hs, hd, ht', ?_, ?_⟩
          · simp only [hs, hd, Option.bind_some]
          · simp only [session_of_get? hs, session_of_get? ht, hd, hsecond]
            rfl

theorem view_transferSubscription (hk : (c.view taken).Keyed) (key : SubscriptionKey)
    (target : SessionKey) :
    (c.act (.transferSubscription key target)).view taken =
      (c.script (.transferSubscription key target)).foldl View.apply (c.view taken) := by
  rcases transferSubscription_cases c key target with
    ⟨e, herror, hnone⟩ | ⟨o, s, sub, holder, t, hs, hd, ht, hmoves, hok⟩
  · rw [act, herror, script, hnone]
    rfl
  · have hholder : holder.key = o := (Session.key_of_detach? hd).trans (hk.own hs)
    have hget : (c.view taken).sessions.get? o = some s := hs
    have hfirst : (c.view taken).apply (.moved o (.letGo key)) =
        (((c.emit (sub.id.toList.map .deleteSubscription)).store holder).view taken) := by
      rw [View.apply_moved hget, Session.moved, hd]
      simp [View.put, view, store, emit, hholder]
    have hkeyed := View.keyed_apply hk (.moved o (.letGo key))
    rw [hfirst] at hkeyed
    have hown : (t.attach sub.forgetRemote).key = target := hkeyed.own (s := t) ht
    rw [act, hok, script, hmoves, List.foldl_cons, hfirst, List.foldl_cons, List.foldl_nil,
      View.apply_moved ht]
    exact view_store hown

/-! ### Pushing and closing -/

theorem view_push (hk : (c.view taken).Keyed) (key : SessionKey) :
    ((c.push key).toOption.getD c).view taken =
      (c.view taken).apply (.moved key (.push c.config)) := by
  cases h : c.sessions.get? key with
  | none =>
    rw [View.apply_moved_none h]
    simp only [push, session_of_get?_none h]
    rfl
  | some s =>
    rw [View.apply_moved h]
    simp only [push, session_of_get? h, bind, Except.bind, Session.moved]
    cases hp : s.push c.config with
    | mk s? intents =>
      cases s? with
      | none => simp [view, destroy, emit, View.put, pure, Except.pure, Except.toOption]
      | some s' =>
        have hs' : s'.key = key := by
          have hpushed : (s.push c.config).1 = some s' := by rw [hp]
          rw [Session.key_of_push hpushed, hk.own h]
        simp [view, store, emit, reindex, View.put, pure, Except.pure, Except.toOption, hs']

theorem push_config (key : SessionKey) : ((c.push key).toOption.getD c).config = c.config := by
  cases h : c.sessions.get? key with
  | none =>
    simp only [push, session_of_get?_none h]
    rfl
  | some s =>
    simp only [push, session_of_get? h, bind, Except.bind]
    split <;> rfl

theorem view_pushAll (hk : (c.view taken).Keyed) :
    c.pushAll.view taken = (c.script .pushAll).foldl View.apply (c.view taken) := by
  simp only [pushAll, script]
  generalize c.sessions.keys = keys
  suffices h : ∀ c' : Context, c'.config = c.config → (c'.view taken).Keyed →
      (keys.foldl (fun c key => (c.push key).toOption.getD c) c').view taken =
        (keys.map fun key => Transition.moved key (.push c.config)).foldl View.apply
          (c'.view taken) from h c rfl hk
  induction keys with
  | nil => exact fun _ _ _ => rfl
  | cons key keys ih =>
    intro c' hconfig hk'
    rw [List.foldl_cons, List.map_cons, List.foldl_cons]
    have hpush := view_push hk' key
    rw [hconfig] at hpush
    rw [← hpush]
    apply ih
    · rw [push_config, hconfig]
    · rw [hpush]
      exact View.keyed_apply hk' _

-- Releasing all sessions one after the other leaves none.
theorem foldl_release (entries : List (SessionKey × Session)) (v : View)
    (h : v.sessions.entries = entries) :
    (entries.map fun e => Transition.moved e.1 .release).foldl View.apply v =
      { v with sessions := .empty,
               emitted := v.emitted ++ entries.flatMap fun e => e.2.release } := by
  induction entries generalizing v with
  | nil =>
    have hempty : v.sessions = .empty := SortedMap.ext_entries h
    simp [← hempty]
  | cons e rest ih =>
    have hsorted := v.sessions.sorted
    rw [h] at hsorted
    have hrest := List.pairwise_cons.1 hsorted
    have hget : v.sessions.get? e.1 = some e.2 := by
      rw [SortedMap.get?, h, Entries.get?_cons, if_pos rfl]
    have hothers : ∀ e' ∈ rest, ¬ e.1 = e'.1 :=
      fun e' he' => KeyOrder.ne_of_lt (hrest.1 e' he')
    have herase : (v.sessions.erase e.1).entries = rest := by
      simp only [SortedMap.erase, Entries.erase, h, List.filter_cons]
      simpa using hothers
    rw [List.map_cons, List.foldl_cons, View.apply_moved hget, ih _ herase]
    simp [View.put, Session.moved]

theorem view_close : c.close.view taken = (c.script .close).foldl View.apply (c.view taken) := by
  have hrelease := foldl_release c.sessions.entries (c.view taken) rfl
  simp only [script, SortedMap.keys, List.map_map]
  rw [show (fun key => Transition.moved key .release) ∘ Prod.fst =
    fun e : SessionKey × Session => Transition.moved e.1 .release from rfl, hrelease]
  simp [close, emit, view, SortedMap.values, List.flatMap_map]

/-! ### Events -/

theorem view_emit (intents : List Intent) :
    (c.emit intents).view taken = (c.view taken).apply (.orphaned intents) := by
  simp [emit, view, View.apply]

theorem view_sessionCreated (hk : (c.view taken).Keyed) (key : SessionKey)
    (result : Except ProblemDetails SessionCreated) :
    (c.sessionCreated key result).1.view taken =
      (c.sessionCreatedMoves key result).foldl View.apply (c.view taken) := by
  have horphan : ∀ result, (c.emit (removeOrphan key result)).view taken =
      (c.view taken).apply (.orphaned (removeOrphan key result)) := fun _ => view_emit _
  have hsettled : ∀ s' : Session, (((c.store s').indexTmgi s').reindex s').view taken =
      (c.store s').view taken := by
    intro s'
    simp only [reindex, indexTmgi]
    split <;> rfl
  unfold sessionCreated sessionCreatedMoves
  cases h : c.session? key with
  | none =>
    cases result with
    | ok answer => exact horphan _
    | error problem =>
      have hnone : (c.view taken).sessions.get? key = none := h
      show (c.emit (removeOrphan key (.error problem))).view taken =
        (c.view taken).apply (.moved key (.refused problem))
      rw [horphan, View.apply_moved_none hnone]
      simp [View.apply, removeOrphan]
  | some s =>
    have hs : (c.view taken).sessions.get? key = some s := h
    cases hw : s.waitingFor? with
    | none =>
      cases result with
      | ok answer =>
        simp only [hw, Option.bind_some]
        exact horphan _
      | error problem =>
        simp only [hw, List.foldl_cons, List.foldl_nil]
        rw [horphan, View.apply_moved hs, Session.moved, hw, View.put_self hs]
        simp [View.apply, removeOrphan]
    | some w =>
      obtain ⟨body, bundled⟩ := w
      have hown : s.key = key := hk.own h
      cases result with
      | ok answer =>
        simp only [hw, Option.bind_some, Option.isSome_some, if_true, List.foldl_cons,
          List.foldl_nil]
        rw [hsettled, View.apply_moved hs, Session.moved, hw]
        exact view_store ((Session.created_key s body bundled answer).trans hown)
      | error problem =>
        simp only [hw, List.foldl_cons, List.foldl_nil]
        rw [hsettled, View.apply_moved hs, Session.moved, hw]
        exact view_store hown

-- A session that is looked up for the owner of a subscription.
theorem get?_of_owner {key : SubscriptionKey} {s : Session}
    (h : (c.owners.get? key).bind c.session? = some s) :
    ∃ o, c.owners.get? key = some o ∧ c.sessions.get? o = some s :=
  Option.bind_eq_some_iff.1 h

theorem foldl_ownerMoves_of_none {key : SubscriptionKey}
    (h : (c.owners.get? key).bind c.session? = none) (m : Session.Move) :
    (c.ownerMoves key m).foldl View.apply (c.view taken) = c.view taken := by
  unfold ownerMoves
  cases ho : c.owners.get? key with
  | none => rfl
  | some o =>
    rw [ho, Option.bind_some] at h
    have hnone : (c.view taken).sessions.get? o = none := h
    exact View.apply_moved_none hnone m

theorem foldl_ownerMoves {key : SubscriptionKey} {o : SessionKey} {s : Session}
    (ho : c.owners.get? key = some o) (hs : c.sessions.get? o = some s) (m : Session.Move) :
    (c.ownerMoves key m).foldl View.apply (c.view taken) =
      (c.view taken).put o (s.moved m).1 (s.moved m).2 := by
  simp only [ownerMoves, ho, List.foldl_cons, List.foldl_nil]
  exact View.apply_moved hs m

theorem view_subscriptionCreated (hk : (c.view taken).Keyed) (key : SubscriptionKey)
    (result : Except OperationResult SubscriptionAck) :
    (c.subscriptionCreated key result).1.view taken =
      (c.subscriptionCreatedMoves key result).foldl View.apply (c.view taken) := by
  unfold subscriptionCreated subscriptionCreatedMoves
  cases howner : (c.owners.get? key).bind c.session? with
  | none =>
    cases result with
    | ok ack => exact view_emit _
    | error failure => exact (foldl_ownerMoves_of_none howner _).symm
  | some s =>
    obtain ⟨o, ho, hs⟩ := get?_of_owner howner
    have hown : s.key = o := hk.own hs
    simp only [Option.bind_some]
    cases hc : s.subscriptionCreated? key result with
    | none =>
      cases result with
      | ok ack =>
        simp only [hc]
        exact view_emit _
      | error failure =>
        rw [foldl_ownerMoves ho hs, Session.moved, hc, View.put_self hs]
    | some p =>
      obtain ⟨s', calls⟩ := p
      have hstore : (c.store s').view taken = (c.view taken).put o (some s') [] :=
        view_store ((Session.key_of_subscriptionCreated? hc).trans hown)
      cases result with
      | ok ack =>
        simp only [hc, Option.isSome_some, if_true]
        rw [foldl_ownerMoves ho hs, Session.moved, hc, hstore]
      | error failure =>
        simp only
        rw [foldl_ownerMoves ho hs, Session.moved, hc, hstore]

theorem view_subscriptionUpdated (hk : (c.view taken).Keyed) (key : SubscriptionKey)
    (result : Except OperationResult SubscriptionAck) :
    (c.subscriptionUpdated key result).1.view taken =
      (c.ownerMoves key (.subscriptionUpdated key result)).foldl View.apply (c.view taken) := by
  unfold subscriptionUpdated
  cases howner : (c.owners.get? key).bind c.session? with
  | none => exact (foldl_ownerMoves_of_none howner _).symm
  | some s =>
    obtain ⟨o, ho, hs⟩ := get?_of_owner howner
    rw [foldl_ownerMoves ho hs]
    exact view_store ((Session.subscriptionUpdated_key s key result).trans (hk.own hs))

theorem view_sessionPatched (hk : (c.view taken).Keyed) (key : SessionKey)
    (result : OperationResult) :
    (c.sessionPatched key result).1.view taken =
      (c.view taken).apply (.moved key (.patched result)) := by
  unfold sessionPatched session?
  cases h : c.sessions.get? key with
  | none => exact (View.apply_moved_none h _).symm
  | some s =>
    rw [View.apply_moved h]
    exact view_store ((Session.patched_key s result).trans (hk.own h))

theorem view_creationTimedOut (key : SessionKey) :
    (c.creationTimedOut key).1.view taken = (c.view taken).apply (.moved key .timedOut) := by
  unfold creationTimedOut session?
  cases h : c.sessions.get? key with
  | none => exact (View.apply_moved_none h _).symm
  | some s =>
    rw [View.apply_moved h, Session.moved]
    cases hw : s.waitingFor? with
    | none =>
      simp only [hw, Option.bind_some, Option.map_none, Option.isSome_none, Bool.false_eq_true,
        if_false]
      exact (View.put_self h).symm
    | some w => simp [hw, view, destroy, View.put]

theorem view_handle (hk : (c.view taken).Keyed) (e : TransportEvent) :
    (c.handle e).1.view taken = (c.handleMoves e).foldl View.apply (c.view taken) := by
  cases e with
  | createResult key result => exact view_sessionCreated hk key result
  | patchResult key result =>
    cases result with
    | ok u => exact view_sessionPatched hk key .ok
    | error problem => exact view_sessionPatched hk key (.refused problem)
  | subscriptionCreated key result => exact view_subscriptionCreated hk key _
  | subscriptionUpdated key result => exact view_subscriptionUpdated hk key _
  | timeout target =>
    cases target with
    | createResource key => exact view_creationTimedOut key
    | patchResource key => exact view_sessionPatched hk key .timedOut
    | createSubscription key => exact view_subscriptionCreated hk key _
    | updateSubscription key => exact view_subscriptionUpdated hk key _

end Context

/-! ## 3. Runs -/

namespace World

/-- The sessions of the world and all that has been emitted. -/
def view (w : World) : View := w.context.view w.taken

-- An action does what its script says.
theorem view_act {w : World} (hk : w.view.Keyed) (a : Action) :
    (w.act a).view = (w.context.script a).foldl View.apply w.view := by
  cases a with
  | newSession => exact Context.view_newSession
  | watchSession key => exact Context.view_watchSession hk key
  | changeSession key change => exact Context.view_changeSession hk key change
  | deleteSession key => exact Context.view_deleteSession hk key
  | addSubscription session data => exact Context.view_addSubscription hk session data
  | updateSubscription key changes => exact Context.view_updateSubscription hk key changes
  | removeSubscription key => exact Context.view_removeSubscription hk key
  | transferSubscription key target => exact Context.view_transferSubscription hk key target
  | push key => exact Context.view_push hk key
  | pushAll => exact Context.view_pushAll hk
  | close => exact Context.view_close
  | takeIntents => simp [act, view, Context.view, Context.act, Context.takeIntents, Context.script]
  | event e => exact Context.view_handle hk e

theorem keyed_act {w : World} (hk : w.view.Keyed) (a : Action) : (w.act a).view.Keyed := by
  rw [view_act hk]
  exact View.keyed_foldl hk _

theorem keyed_run (config : ClientConfig) (actions : List Action) :
    (run config actions).view.Keyed := by
  induction actions using List.reverseRecOn with
  | nil => exact ⟨by simp [run, acts, view, Context.view], by simp [run, acts, view, Context.view]⟩
  | append_singleton actions a ih =>
    rw [run_snoc]
    exact keyed_act ih a

theorem emitted_act {w : World} (hk : w.view.Keyed) (a : Action) :
    w.emitted <+: (w.act a).emitted := by
  have hprefix := View.emitted_foldl w.view (w.context.script a)
  rwa [← view_act hk] at hprefix

theorem keyed_context (config : ClientConfig) (actions : List Action) :
    ((run config actions).context.view []).Keyed :=
  ⟨(keyed_run config actions).own, (keyed_run config actions).below⟩

-- What has been emitted along a run stays emitted.
theorem emitted_run (config : ClientConfig) (before after : List Action) :
    (run config before).emitted <+: (run config (before ++ after)).emitted := by
  induction after using List.reverseRecOn with
  | nil => rw [List.append_nil]
  | append_singleton after a ih =>
    rw [← List.append_assoc, run_snoc]
    exact ih.trans (emitted_act (keyed_run config _) a)

end World

end MbsClient
