import MbsClient.Proofs.Context.Holders

/-!
# In place — operations that write as they go

An operation is defined as a function of the context that yields no context when it fails. Here it
is written out as a program that works on one context: whatever is changed is put back at once, and
what has been written when a check fails stays written. The program comes to the same as the
function (`Operation.run_inPlace`), so a failure leaves no trace.
-/

namespace MbsClient

/-- A program on a context. Where it fails, the context is left as it is at this point. -/
abbrev InPlace := EStateM Error Context

namespace InPlace

variable {α β : Type}

/-- Looks something up. -/
def look (f : Context → Except Error α) : InPlace α := do
  match f (← get) with
  | .ok a => return a
  | .error e => throw e

/-- Fails if something is not allowed. -/
def check (allowed : Bool) (e : Error) : InPlace Unit := unless allowed do throw e

/-- Takes a subscription from the session that holds it. -/
def detach (holder : SessionKey) (key : SubscriptionKey) : InPlace Subscription := do
  let s ← look fun c => c.session holder
  match s.detach? key with
  | some (sub, s) => do
      modify fun c => c.store s
      return sub
  | none => throw (.subscriptionNotFound key)

/-- What a function comes to in place: the context stays as it is where the function fails. -/
def outcome (c : Context) : Except Error (α × Context) → EStateM.Result Error Context α
  | .ok (a, c') => .ok a c'
  | .error e => .error e c

theorem run_get_bind (rest : Context → InPlace β) (c : Context) :
    ((get : InPlace Context) >>= rest).run c = (rest c).run c := rfl

theorem run_modify_bind (f : Context → Context) (rest : Unit → InPlace β) (c : Context) :
    ((modify f : InPlace Unit) >>= rest).run c = (rest ()).run (f c) := rfl

theorem run_look_bind (f : Context → Except Error α) (rest : α → InPlace β) (c : Context) :
    (look f >>= rest).run c =
      match f c with
      | .ok a => (rest a).run c
      | .error e => .error e c := by
  rw [look, bind_assoc, run_get_bind]
  cases f c <;> rfl

theorem run_check_bind (allowed : Bool) (e : Error) (rest : Unit → InPlace β) (c : Context) :
    (check allowed e >>= rest).run c = if allowed then (rest ()).run c else .error e c := by
  cases allowed <;> rfl

theorem run_detach_bind {c : Context} {holder : SessionKey} {s : Session}
    (hs : c.session holder = .ok s) (key : SubscriptionKey) (rest : Subscription → InPlace β) :
    (detach holder key >>= rest).run c =
      match s.detach? key with
      | some (sub, s') => (rest sub).run (c.store s')
      | none => .error (.subscriptionNotFound key) c := by
  simp only [detach, bind_assoc, run_look_bind, hs]
  cases s.detach? key <;> rfl

end InPlace

/-- An operation that may fail, by what it yields. -/
inductive Operation : Type → Type where
  | newSession : Operation SessionKey
  | deleteSession (key : SessionKey) : Operation Unit
  | setFsaIds (key : SessionKey) (ids : List FsaId) : Operation Unit
  | addSubscription (session : SessionKey) (data : MbsSessionSubscription) :
      Operation SubscriptionKey
  | updateSubscription (key : SubscriptionKey) (changes : List SubscriptionChange) :
      Operation Unit
  | removeSubscription (key : SubscriptionKey) : Operation Unit
  | transferSubscription (key : SubscriptionKey) (target : SessionKey) : Operation Unit
  | push (key : SessionKey) : Operation Unit

/-- A subscription waits to be deleted under its id. -/
def Session.condemn (s : Session) (id : String) (sub : Subscription) : Session :=
  { s with
    remote := s.remote.mapResource fun r =>
      { r with pendingDelete := r.pendingDelete ++ [(id, sub.forgetRemote)] }
    dirty := true }

namespace Operation

open InPlace

variable {α : Type}

/-! ## 1. Functions and programs -/

/-- The operation as a function. -/
def apply (c : Context) : Operation α → Except Error (α × Context)
  | newSession => c.newSession
  | deleteSession key => (c.deleteSession key).map ((), ·)
  | setFsaIds key ids => (c.changeSession key (.fsaIds ids)).map ((), ·)
  | addSubscription session data => c.addSubscription session data
  | updateSubscription key changes => (c.updateSubscription key changes).map ((), ·)
  | removeSubscription key => (c.removeSubscription key).map ((), ·)
  | transferSubscription key target => (c.transferSubscription key target).map ((), ·)
  | push key => (c.push key).map ((), ·)

/-- The operation among all actions. -/
def action : Operation α → Action
  | newSession => .newSession
  | deleteSession key => .deleteSession key
  | setFsaIds key ids => .changeSession key (.fsaIds ids)
  | addSubscription session data => .addSubscription session data
  | updateSubscription key changes => .updateSubscription key changes
  | removeSubscription key => .removeSubscription key
  | transferSubscription key target => .transferSubscription key target
  | push key => .push key

/-- The operation as a program. -/
def inPlace : Operation α → InPlace α
  | newSession => do
      let c ← get
      check (c.sessions.size < c.config.maxSessions) (.tooManySessions c.config.maxSessions)
      let key := c.nextSession
      modify fun c => { c with nextSession := key + 1 }
      modify fun c => c.store { key }
      return key
  | deleteSession key => do
      let s ← look fun c => c.session key
      modify fun c => c.store s.markDeleted
  | setFsaIds key ids => do
      let s ← look fun c => c.session key
      check (ids.isEmpty || s.data.isBroadcast) (.value .fsaIdsNotBroadcast)
      modify fun c => c.store { s with data := { s.data with mbsFsaIdList := ⟨ids⟩ }, dirty := true }
  | addSubscription session data => do
      let key := (← get).nextSubscription
      let s ← look fun c => c.session session
      modify fun c => c.store (s.attach (.new key session data))
      modify fun c => { c with nextSubscription := key + 1 }
      modify fun c => { c with owners := c.owners.insert key session }
      return key
  | updateSubscription key changes => do
      let holder ← look fun c => c.owner key
      let s ← look fun c => c.session holder
      check (s.subscription? key).isSome (.subscriptionNotFound key)
      let s := s.modifySubscription key fun sub =>
        { changes.foldl Subscription.change sub with dirty := true }
      modify fun c => c.store { s with dirty := true }
  | removeSubscription key => do
      let holder ← look fun c => c.owner key
      let sub ← detach holder key
      match sub.id with
      | some id => do
          let s ← look fun c => c.session holder
          modify fun c => c.store (s.condemn id sub)
      | none => modify fun c => { c with owners := c.owners.erase key }
  | transferSubscription key target => do
      let holder ← look fun c => c.owner key
      let _ ← look fun c => c.session target
      let sub ← detach holder key
      modify fun c => c.emit (sub.id.toList.map .deleteSubscription)
      let s ← look fun c => c.session target
      modify fun c => c.store (s.attach sub.forgetRemote)
      modify fun c => { c with owners := c.owners.insert key target }
  | push key => do
      let s ← look fun c => c.session key
      let (s?, intents) := s.push (← get).config
      modify fun c => c.emit intents
      match s? with
      | some s => do
          modify fun c => c.store s
          modify fun c => c.reindex s
      | none => modify fun c => c.destroy key

theorem map_snd_yields (r : Except Error Context) :
    (r.map fun c : Context => ((), c)).map Prod.snd = r := by
  cases r <;> rfl

-- What the function leaves is what the action leaves.
theorem act_action (c : Context) (op : Operation α) :
    c.act op.action = ((op.apply c).map Prod.snd).toOption.getD c := by
  cases op with
  | newSession => rfl
  | addSubscription session data => rfl
  | _ => simp only [action, apply, Context.act, map_snd_yields]

end Operation

/-! ## 2. Both come to the same -/

namespace Session

variable {s s' : Session} {key : SubscriptionKey} {sub : Subscription}

theorem not_mem_of_detach? (hn : s.subscriptionKeys.Nodup) (hd : s.detach? key = some (sub, s')) :
    key ∉ s'.subscriptionKeys := by
  have hcount := count_subscriptionKeys_detach? hd key
  have honce := List.nodup_iff_count_le_one.1 hn key
  rw [(mem_of_detach? hd).2, List.count_singleton_self] at hcount
  exact List.count_eq_zero.1 (by omega)

-- Only a registered session has subscriptions with ids.
theorem mem_condemn (hl : s.Labelled) (hd : s.detach? key = some (sub, s')) {id : String}
    (hid : sub.id = some id) : key ∈ (s'.condemn id sub).subscriptionKeys := by
  have hkey : sub.key = key := (mem_of_detach? hd).2
  unfold detach? at hd
  split at hd
  · rename_i found hfound
    obtain ⟨rfl, -⟩ := Prod.mk.inj (Option.some.inj hd)
    rw [hl.new found (List.mem_of_find?_eq_some hfound)] at hid
    cases hid
  · obtain ⟨⟨id', found⟩, hfound, he⟩ := Option.map_eq_some_iff.1 hd
    obtain ⟨rfl, rfl⟩ := Prod.mk.inj he
    have hget : s.active.get? id' = some found :=
      SortedMap.mem_entries.1 (List.mem_of_find?_eq_some hfound)
    cases hr : s.remote with
    | absent => simp [active, hr] at hget
    | creating body bundled => simp [active, hr] at hget
    | registered r =>
      simp [condemn, subscriptionKeys, pendingDelete, Remote.mapResource,
        Subscription.forgetRemote, hkey]

end Session

namespace Operation

open InPlace

variable {α : Type} {c : Context}

theorem run_newSession : newSession.inPlace.run c = outcome c (newSession.apply c) := by
  simp only [inPlace, run_get_bind, run_check_bind, apply, Context.newSession]
  by_cases h : c.config.maxSessions ≤ c.sessions.size
  · simp only [h, Nat.not_lt.2 h, decide_false, Bool.false_eq_true, if_false, if_true]
    rfl
  · simp only [h, Nat.lt_of_not_le h, decide_true, if_true, if_false]
    rfl

theorem run_deleteSession (key : SessionKey) :
    (deleteSession key).inPlace.run c = outcome c ((deleteSession key).apply c) := by
  simp only [inPlace, run_look_bind, apply, Context.deleteSession]
  cases c.session key <;> rfl

theorem change_fsaIds (s : Session) (ids : List FsaId) :
    s.change (.fsaIds ids) =
      if ids.isEmpty || s.data.isBroadcast then
        .ok { s with data := { s.data with mbsFsaIdList := ⟨ids⟩ }, dirty := true }
      else .error (.value .fsaIdsNotBroadcast) := by
  simp only [Session.change, SessionChange.isIdle, MbsSession.change, Bool.false_eq_true, if_false]
  split <;> rfl

theorem run_setFsaIds (key : SessionKey) (ids : List FsaId) :
    (setFsaIds key ids).inPlace.run c = outcome c ((setFsaIds key ids).apply c) := by
  simp only [inPlace, run_look_bind, run_check_bind, apply, Context.changeSession]
  cases c.session key with
  | error e => rfl
  | ok s =>
    simp only [bind, Except.bind, change_fsaIds]
    split <;> rfl

theorem run_addSubscription (session : SessionKey) (data : MbsSessionSubscription) :
    (addSubscription session data).inPlace.run c =
      outcome c ((addSubscription session data).apply c) := by
  simp only [inPlace, run_get_bind, run_look_bind, apply, Context.addSubscription]
  cases c.session session <;> rfl

theorem run_updateSubscription (key : SubscriptionKey) (changes : List SubscriptionChange) :
    (updateSubscription key changes).inPlace.run c =
      outcome c ((updateSubscription key changes).apply c) := by
  simp only [inPlace, run_look_bind, run_check_bind, apply, Context.updateSubscription]
  cases c.owner key with
  | error e => rfl
  | ok holder =>
    simp only [bind, Except.bind]
    cases c.session holder with
    | error e => rfl
    | ok s =>
      dsimp only
      cases s.subscription? key <;> rfl

theorem run_push (key : SessionKey) :
    (push key).inPlace.run c = outcome c ((push key).apply c) := by
  simp only [inPlace, run_look_bind, run_get_bind, run_modify_bind, apply, Context.push]
  cases c.session key with
  | error e => rfl
  | ok s =>
    simp only [bind, Except.bind]
    cases s.push c.config with
    | mk s? intents => cases s? <;> rfl

-- The target is still there when the holder has let go.
theorem run_transferSubscription (hlive : c.OwnersLive) (key : SubscriptionKey)
    (target : SessionKey) :
    (transferSubscription key target).inPlace.run c =
      outcome c ((transferSubscription key target).apply c) := by
  simp only [inPlace, run_look_bind, apply, Context.transferSubscription]
  cases ho : c.owner key with
  | error e => rfl
  | ok holder =>
    obtain ⟨s, hs⟩ := hlive.session ho
    cases ht : c.session target with
    | error e =>
      simp only [hs, bind, Except.bind]
      rfl
    | ok t =>
      simp only [run_detach_bind hs, run_modify_bind, run_look_bind]
      simp only [hs, bind, Except.bind]
      cases s.detach? key with
      | none => rfl
      | some left =>
        obtain ⟨t', ht'⟩ := Context.session_store_of_ok
          (c := c.emit (left.1.id.toList.map .deleteSubscription)) ht left.2
        have hlater : ((c.store left.2).emit (left.1.id.toList.map .deleteSubscription)).session
          target = .ok t' := ht'
        simp only [ht', hlater]
        rfl

-- A session that is put back twice is put back as it is last.
theorem store_store (c : Context) {s s' : Session} (h : s'.key = s.key) :
    (c.store s).store s' = c.store s' := by
  have hinsert : (c.sessions.insert s.key s).insert s.key s' = c.sessions.insert s.key s' :=
    SortedMap.ext_entries (Entries.insert_insert _ _ c.sessions.sorted)
  rw [Context.store, Context.store, Context.store, h, hinsert]

-- The index keeps a withdrawn subscription exactly if it has an id.
theorem run_removeSubscription (hk : (c.view []).Keyed) (hl : (c.view []).Labelled)
    (honce : ∀ k, (c.view []).subscribers.count k ≤ 1) (hlive : c.OwnersLive)
    (key : SubscriptionKey) :
    (removeSubscription key).inPlace.run c = outcome c ((removeSubscription key).apply c) := by
  simp only [inPlace, run_look_bind, apply]
  cases ho : c.owner key with
  | error e =>
    simp only [Context.removeSubscription, ho]
    rfl
  | ok holder =>
    obtain ⟨s, hs⟩ := hlive.session ho
    have hget : c.session? holder = some s := Context.session?_of_session hs
    have hn : s.subscriptionKeys.Nodup := View.nodup_of_count_subscribers honce hget
    simp only [Context.removeSubscription_eq ho hs, run_detach_bind hs]
    cases hd : s.detach? key with
    | none =>
      simp only [Session.removeSubscription, hd]
      rfl
    | some left =>
      obtain ⟨sub, s'⟩ := left
      have hown : s'.key = holder := (Session.key_of_detach? hd).trans (hk.own hget)
      have hsame : (c.store s').session holder = .ok s' := hown ▸ Context.session_store c s'
      cases hid : sub.id with
      | none =>
        have hr : s.removeSubscription key = .ok s' := by
          simp only [Session.removeSubscription, hd, hid]
        have hgone : s'.subscriptionKeys.contains key = false := by
          simpa using Session.not_mem_of_detach? hn hd
        simp only [hr, hid, Except.map, hgone]
        rfl
      | some id =>
        have hr : s.removeSubscription key = .ok (s'.condemn id sub) := by
          simp only [Session.removeSubscription, hd, hid]
          rfl
        have hheld : (s'.condemn id sub).subscriptionKeys.contains key = true := by
          simpa using Session.mem_condemn (hl holder s hget) hd hid
        have hstore : (c.store s').store (s'.condemn id sub) = c.store (s'.condemn id sub) :=
          store_store c rfl
        simp only [hr, hid, Except.map, hheld, run_look_bind, hsame, ← hstore]
        rfl

/-! ## 3. What may be done -/

/-- What is asked of the sessions for an operation. -/
def Allowed (c : Context) : Operation α → Prop
  | newSession => c.sessions.size < c.config.maxSessions
  | deleteSession key => ∃ s, c.session? key = some s
  | setFsaIds key ids =>
      ∃ s, c.session? key = some s ∧ (ids.isEmpty || s.data.isBroadcast) = true
  | addSubscription session _ => ∃ s, c.session? session = some s
  | updateSubscription key _ => c.Wanted key
  | removeSubscription key => c.Wanted key
  | transferSubscription key target => c.Wanted key ∧ ∃ s, c.session? target = some s
  | push key => ∃ s, c.session? key = some s

theorem map_yields_iff {r : Except Error Context} :
    (∃ p, (r.map fun c' : Context => ((), c')) = .ok p) ↔ ∃ c', r = .ok c' := by
  cases r with
  | error e => simp [Except.map]
  | ok c' => exact ⟨fun _ => ⟨c', rfl⟩, fun _ => ⟨_, rfl⟩⟩

-- What only asks for a session succeeds exactly if it is there.
theorem bind_session_iff {β : Type} {key : SessionKey} {f : Session → Except Error β}
    (hf : ∀ s, ∃ b, f s = .ok b) :
    (∃ b, c.session key >>= f = .ok b) ↔ ∃ s, c.session? key = some s := by
  cases hs : c.session? key with
  | none =>
    rw [Context.session_of_get?_none hs]
    simp [bind, Except.bind]
  | some s =>
    rw [Context.session_of_get? hs]
    exact iff_of_true (hf s) ⟨s, rfl⟩

theorem setFsaIds_iff (key : SessionKey) (ids : List FsaId) :
    (∃ c', c.changeSession key (.fsaIds ids) = .ok c') ↔ (setFsaIds key ids).Allowed c := by
  simp only [Context.changeSession, Allowed]
  cases hs : c.session? key with
  | none =>
    rw [Context.session_of_get?_none hs]
    simp [bind, Except.bind]
  | some s =>
    rw [Context.session_of_get? hs]
    simp only [bind, Except.bind, change_fsaIds, Option.some.injEq, exists_eq_left']
    by_cases hallowed : (ids.isEmpty || s.data.isBroadcast) = true
    · simp only [hallowed, if_true, iff_true]
      exact ⟨_, rfl⟩
    · simp only [hallowed, if_false, reduceCtorEq, exists_false]

theorem apply_iff_allowed (hI : c.Indexed) (hlive : c.OwnersLive) (op : Operation α) :
    (∃ p, op.apply c = .ok p) ↔ op.Allowed c := by
  cases op with
  | newSession =>
    simp only [apply, Allowed, Context.newSession]
    split
    · rename_i hfull
      simp [Nat.not_lt.2 hfull]
    · rename_i hroom
      exact ⟨fun _ => Nat.lt_of_not_le hroom, fun _ => ⟨_, rfl⟩⟩
  | deleteSession key =>
    rw [apply, map_yields_iff]
    exact bind_session_iff fun s => ⟨_, rfl⟩
  | setFsaIds key ids =>
    rw [apply, map_yields_iff]
    exact setFsaIds_iff key ids
  | addSubscription session data => exact bind_session_iff fun s => ⟨_, rfl⟩
  | updateSubscription key changes =>
    rw [apply, map_yields_iff]
    exact (Context.updateSubscription_iff hI hlive changes).1
  | removeSubscription key =>
    rw [apply, map_yields_iff]
    exact (Context.removeSubscription_iff hI hlive).1
  | transferSubscription key target =>
    rw [apply, map_yields_iff]
    exact Context.transferSubscription_iff hI hlive target
  | push key =>
    rw [apply, map_yields_iff]
    refine bind_session_iff fun s => ?_
    split <;> exact ⟨_, rfl⟩

end Operation

/-! ## 4. Along a run -/

theorem World.run_inPlace (config : ClientConfig) (actions : List Action) {α : Type}
    (op : Operation α) :
    op.inPlace.run (run config actions).context =
      InPlace.outcome (run config actions).context (op.apply (run config actions).context) := by
  cases op with
  | newSession => exact Operation.run_newSession
  | deleteSession key => exact Operation.run_deleteSession key
  | setFsaIds key ids => exact Operation.run_setFsaIds key ids
  | addSubscription session data => exact Operation.run_addSubscription session data
  | updateSubscription key changes => exact Operation.run_updateSubscription key changes
  | removeSubscription key =>
    exact Operation.run_removeSubscription (keyed_context config actions)
      (labelled_run config actions) (count_subscribers_run config actions)
      (ownersLive_run config actions) key
  | transferSubscription key target =>
    exact Operation.run_transferSubscription (ownersLive_run config actions) key target
  | push key => exact Operation.run_push key

/-- **Operations do all or nothing, and all that is allowed.** After any run, an operation that is
allowed yields something and leaves the context that the action leaves; an operation that is not
allowed fails and leaves the context as it is, also where it works in place. A withdrawal or a
change of a subscription is told that there is no such subscription exactly if no session wants
it. -/
theorem operations_all_or_nothing (config : ClientConfig) (actions : List Action) :
    let c := (World.run config actions).context
    (∀ (α : Type) (op : Operation α),
      (op.Allowed c ∧ ∃ a, op.apply c = .ok (a, c.act op.action) ∧
        op.inPlace.run c = .ok a (c.act op.action)) ∨
      (¬ op.Allowed c ∧ c.act op.action = c ∧ ∃ e, op.apply c = .error e ∧
        op.inPlace.run c = .error e c)) ∧
    ∀ key, (c.removeSubscription key = .error (.subscriptionNotFound key) ↔ ¬ c.Wanted key) ∧
      ∀ changes, c.updateSubscription key changes = .error (.subscriptionNotFound key) ↔
        ¬ c.Wanted key := by
  have hI := World.indexed_run config actions
  have hlive := World.ownersLive_run config actions
  refine ⟨fun α op => ?_, fun key => ⟨?_, fun changes => ?_⟩⟩
  · have hallowed := Operation.apply_iff_allowed hI hlive op
    have hact := Operation.act_action (World.run config actions).context op
    rw [World.run_inPlace, ← hallowed]
    cases happly : op.apply (World.run config actions).context with
    | ok p =>
      obtain ⟨a, c'⟩ := p
      have hleft : (World.run config actions).context.act op.action = c' := by
        rw [hact, happly]
        rfl
      rw [hleft]
      exact .inl ⟨⟨_, rfl⟩, a, rfl, rfl⟩
    | error e =>
      refine .inr ⟨by simp, ?_, e, rfl, rfl⟩
      rw [hact, happly]
      rfl
  · exact (Context.removeSubscription_iff hI hlive).2
  · exact (Context.updateSubscription_iff hI hlive changes).2

end MbsClient
