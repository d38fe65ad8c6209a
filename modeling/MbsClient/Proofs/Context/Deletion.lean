import MbsClient.Proofs.Context.Kept
import MbsClient.Proofs.Context.Pending
import MbsClient.Proofs.Context.Pushes
import MbsClient.Proofs.Session.Body

/-!
# Deletion — a deleted session asks for nothing more

A deleted session stays deleted, and keeps the resource that it has, until it is pushed or the
context is closed (`Session.deleted_moved`). Its push takes the resource down and the session out of
the context with all that leads to it, and its key is not handed out again (`deletion_final`).
-/

namespace MbsClient

/-! ## 1. The moves of a deleted session -/

namespace Session

variable {s s' : Session} {m : Move}

theorem waitingFor?_of_deleted (hd : s.deleted = true) : s.waitingFor? = none := by
  simp only [waitingFor?, hd]

theorem resourceId?_of_bare (h : s'.remote.bare = s.remote.bare) :
    s'.resourceId? = s.resourceId? := by
  have hbare : ∀ t : Session, t.resourceId? = t.remote.bare.resource?.map Resource.id := by
    intro t
    cases hr : t.remote <;> simp [resourceId?, resource?, hr, Remote.bare, Remote.resource?]
  rw [hbare, hbare, h]

-- No answer counts for a deleted session, and no change brings it back.
theorem deleted_moved (hd : s.deleted = true) (h : (s.moved m).1 = some s') :
    s'.deleted = true ∧ s'.resourceId? = s.resourceId? := by
  cases m with
  | change c =>
    rw [← Option.some.inj h]
    cases hc : s.change c with
    | error e => exact ⟨hd, rfl⟩
    | ok t =>
      obtain ⟨data, dirty, rfl⟩ := eq_of_change hc
      exact ⟨hd, rfl⟩
  | markDeleted =>
    rw [← Option.some.inj h]
    exact ⟨rfl, rfl⟩
  | push config => simp [moved, push, hd] at h
  | release => simp [moved] at h
  | created answer =>
    simp only [moved, waitingFor?_of_deleted hd] at h
    exact Option.some.inj h ▸ ⟨hd, rfl⟩
  | refused problem =>
    simp only [moved, waitingFor?_of_deleted hd] at h
    exact Option.some.inj h ▸ ⟨hd, rfl⟩
  | timedOut =>
    simp only [moved, waitingFor?_of_deleted hd] at h
    exact Option.some.inj h ▸ ⟨hd, rfl⟩
  | patched result =>
    simp only [moved, patched, hd] at h
    exact Option.some.inj h ▸ ⟨hd, rfl⟩
  | _ =>
    have hsame := sameBody_moved (by trivial) h
    exact ⟨hsame.deleted.trans hd, resourceId?_of_bare hsame.remote⟩

/-- Moves after which a deleted session is gone. -/
def Move.Ends : Move → Prop
  | .push _ => True
  | .release => True
  | _ => False

theorem exists_moved_of_deleted (hd : s.deleted = true) (hm : ¬ m.Ends) :
    ∃ s', (s.moved m).1 = some s' := by
  cases m with
  | push config => exact absurd trivial hm
  | release => exact absurd trivial hm
  | created answer => exact ⟨s, by simp only [moved, waitingFor?_of_deleted hd]⟩
  | timedOut => exact ⟨s, by simp [moved, waitingFor?_of_deleted hd]⟩
  | _ =>
    refine Exists.imp (fun s' h => h.1) (?_ : ∃ s', _ ∧ s'.identity = s.identity)
    exact s.identity_moved trivial

-- All that a deleted session asks for is that its resource is taken down.
theorem removes_of_deleted (hd : s.deleted = true) {i : Intent} (hi : i ∈ (s.moved m).2)
    {key : SessionKey} (hkey : i.session? = some key) : ∃ id, i = .removeResource key id := by
  cases sends_of_mem hi with
  | letGo => cases hkey
  | pushed hi =>
    simp only [push, hd, if_true] at hi
    obtain ⟨id, -, rfl⟩ := exists_of_mem_release hi
    exact ⟨id, by rw [Option.some.inj hkey]⟩
  | @released id => exact ⟨id, by rw [Option.some.inj hkey]⟩

end Session

/-! ## 2. A key that nobody lives under any more -/

/-- The request takes a resource down, unless it is made for another session. -/
def Intent.SparesSession (key : SessionKey) (i : Intent) : Prop :=
  i.session? = some key → ∃ id, i = .removeResource key id

/-- The step does not take a deleted session away. -/
def Transition.Leaves (key : SessionKey) : Transition → Prop
  | .moved k m => k = key → ¬ m.Ends
  | _ => True

/-- An action after which a deleted session is gone. -/
def Action.TakesDown (key : SessionKey) (a : Action) : Prop := a.Pushes key ∨ a = .close

theorem Action.Makes.leaves {config : ClientConfig} {key : SessionKey} {a : Action}
    {t : Transition} (h : a.Makes config t) (ha : ¬ a.TakesDown key) : t.Leaves key := by
  cases h with
  | opened => trivial
  | abandoned => trivial
  | unclaimed => trivial
  | pushed =>
    rintro rfl
    exact absurd (.inl (.inl rfl)) ha
  | allPushed => exact absurd (.inl (.inr rfl)) ha
  | closed => exact absurd (.inr rfl) ha
  | _ => exact fun _ => not_false

namespace View

/-- The key is taken, and a session that is still there is deleted. -/
structure Buried (v : View) (key : SessionKey) (id? : Option String) : Prop where
  below : key < v.nextSession
  deleted : ∀ s, v.sessions.get? key = some s → s.deleted = true
  resource : ∀ s, v.sessions.get? key = some s → s.resourceId? = id?

variable {v : View} {key : SessionKey} {id? : Option String}

theorem buried_apply (h : v.Buried key id?) (t : Transition) : (v.apply t).Buried key id? := by
  have hafter : ∀ s', (v.apply t).sessions.get? key = some s' →
      s'.deleted = true ∧ s'.resourceId? = id? := by
    intro s' hs'
    cases sessionFrom hs' with
    | kept hs => exact ⟨h.deleted s' hs, h.resource s' hs⟩
    | opened hkey => exact absurd hkey (Nat.ne_of_lt h.below)
    | moved hs hm =>
      obtain ⟨hd, hid⟩ := Session.deleted_moved (h.deleted _ hs) hm
      exact ⟨hd, hid.trans (h.resource _ hs)⟩
  exact ⟨Nat.lt_of_lt_of_le h.below (nextSession_le_apply v t), fun s hs => (hafter s hs).1,
    fun s hs => (hafter s hs).2⟩

theorem buried_foldl (h : v.Buried key id?) (ts : List Transition) :
    (ts.foldl apply v).Buried key id? := by
  induction ts generalizing v with
  | nil => exact h
  | cons t ts ih => exact ih (buried_apply h t)

theorem spares_of_sends (hk : v.Keyed) (h : v.Buried key id?) {config : ClientConfig} {a : Action}
    {t : Transition} (ht : a.Makes config t) {i : Intent} (hi : i ∈ v.sends t) :
    i.SparesSession key := by
  intro hkey
  cases sentBy hi with
  | moved hs hmem =>
    have hself : key = _ := Session.speaks_of_moved hmem key hkey
    rw [hk.own hs] at hself
    exact Session.removes_of_deleted (h.deleted _ (hself ▸ hs)) hmem hkey
  | orphaned hmem =>
    rcases ht.orphans i hmem with ⟨k, id, rfl⟩ | ⟨id, rfl⟩
    · exact ⟨id, by rw [Option.some.inj hkey]⟩
    · cases hkey

theorem exists_foldl_of_buried (h : v.Buried key id?) {ts : List Transition}
    (hts : ∀ t ∈ ts, t.Leaves key) {s : Session} (hs : v.sessions.get? key = some s) :
    ∃ s', (ts.foldl apply v).sessions.get? key = some s' := by
  induction ts generalizing v s with
  | nil => exact ⟨s, hs⟩
  | cons t ts ih =>
    have hfirst : ∃ s', (v.apply t).sessions.get? key = some s' := by
      rcases get?_apply hs h.below t with hsame | ⟨m, rfl, hmoved⟩
      · exact ⟨s, hsame⟩
      · obtain ⟨s', hs'⟩ := Session.exists_moved_of_deleted (h.deleted s hs)
          (hts _ List.mem_cons_self rfl)
        exact ⟨s', hmoved.trans hs'⟩
    obtain ⟨s', hs'⟩ := hfirst
    exact ih (buried_apply h t) (fun u hu => hts u (List.mem_cons_of_mem _ hu)) hs'

end View

namespace World

variable {w : World} {key : SessionKey} {id? : Option String}

theorem buried_act (hk : w.view.Keyed) (h : w.view.Buried key id?) (a : Action) :
    (w.act a).view.Buried key id? := by
  rw [view_act hk]
  exact View.buried_foldl h _

-- What an action emits spares a buried session.
theorem spares_act (hk : w.view.Keyed) (h : w.view.Buried key id?) (a : Action) :
    ∃ sent, (w.act a).emitted = w.emitted ++ sent ∧ ∀ i ∈ sent, i.SparesSession key := by
  have hview := congrArg View.emitted (view_act hk a)
  rw [View.emitted_foldl_eq] at hview
  refine ⟨_, hview, fun i hi => ?_⟩
  obtain ⟨before, t, after, hscript, hi⟩ := View.exists_of_mem_sent hi
  have hmakes := Context.makes_of_mem_script (hscript ▸ List.mem_append_cons_self)
  exact View.spares_of_sends (View.keyed_foldl hk before) (View.buried_foldl h before) hmakes hi

theorem buried_acts (hk : w.view.Keyed) (h : w.view.Buried key id?) (actions : List Action) :
    (w.acts actions).view.Buried key id? ∧
      ∃ sent, (w.acts actions).emitted = w.emitted ++ sent ∧ ∀ i ∈ sent, i.SparesSession key := by
  induction actions generalizing w with
  | nil => exact ⟨h, [], (List.append_nil _).symm, by simp⟩
  | cons a actions ih =>
    obtain ⟨first, hfirst, hspares⟩ := spares_act hk h a
    obtain ⟨hb, rest, hrest, hspares'⟩ := ih (keyed_act hk a) (buried_act hk h a)
    refine ⟨hb, first ++ rest, ?_, fun i hi => ?_⟩
    · rw [← List.append_assoc, ← hfirst]
      exact hrest
    · exact (List.mem_append.1 hi).elim (hspares i) (hspares' i)

-- Nothing but a push or a close takes a deleted session away.
theorem exists_act (hk : w.view.Keyed) (h : w.view.Buried key id?) {a : Action}
    (ha : ¬ a.TakesDown key) {s : Session} (hs : w.context.session? key = some s) :
    ∃ s', (w.act a).context.session? key = some s' := by
  have hview := congrArg View.sessions (view_act hk a)
  rw [Context.session?, show (w.act a).context.sessions = _ from hview]
  exact View.exists_foldl_of_buried h
    (fun t ht => (Context.makes_of_mem_script ht).leaves ha) hs

theorem exists_acts (hk : w.view.Keyed) (h : w.view.Buried key id?) {actions : List Action}
    (hactions : ∀ a ∈ actions, ¬ a.TakesDown key) {s : Session}
    (hs : w.context.session? key = some s) :
    ∃ s', (w.acts actions).context.session? key = some s' := by
  induction actions generalizing w s with
  | nil => exact ⟨s, hs⟩
  | cons a actions ih =>
    obtain ⟨s', hs'⟩ := exists_act hk h (hactions a List.mem_cons_self) hs
    exact ih (keyed_act hk a) (buried_act hk h a)
      (fun b hb => hactions b (List.mem_cons_of_mem _ hb)) hs'

end World

/-! ## 3. Along a run -/

namespace Context

variable {c : Context} {key : SessionKey} {s : Session}

theorem act_push_of_deleted (hs : c.session? key = some s) (hd : s.deleted = true) :
    c.act (.push key) = (c.emit s.release).destroy key := by
  simp only [act, push, session_of_get? hs, bind, Except.bind, Session.push, hd, if_true]
  rfl

theorem deleteSession_eq {c' : Context} (h : c.deleteSession key = .ok c') :
    ∃ s, c.session? key = some s ∧ c' = c.store s.markDeleted := by
  cases hs : c.session? key with
  | none =>
    simp only [deleteSession, session_of_get?_none hs] at h
    cases h
  | some s =>
    simp only [deleteSession, session_of_get? hs] at h
    exact ⟨s, rfl, (Except.ok.inj h).symm⟩

/-- Nothing is left of a session in a context. -/
structure Cleared (c : Context) (key : SessionKey) (subs : List SubscriptionKey) : Prop where
  session : c.session? key = none
  owners : ∀ k, c.owners.get? k ≠ some key
  subscriptions : ∀ k ∈ subs, c.owners.get? k = none
  tmgis : ∀ t, c.tmgiOwners.get? t ≠ some key

theorem cleared_destroy (hI : c.Indexed) (hs : c.session? key = some s) :
    (c.destroy key).Cleared key s.subscriptionKeys := by
  have howners : ∀ k, (c.destroy key).owners.get? k ≠ some key := fun k h =>
    bne_iff_ne.1 (SortedMap.get?_filter_iff.1 h).2 rfl
  refine ⟨SortedMap.get?_erase_self _ _, howners, fun k hk => ?_, fun t h =>
    bne_iff_ne.1 (SortedMap.get?_filter_iff.1 h).2 rfl⟩
  -- the index led to the session, or nowhere
  cases hget : (c.destroy key).owners.get? k with
  | none => rfl
  | some owner =>
    have hbefore := (SortedMap.get?_filter_iff.1 hget).1
    rw [hI key k ⟨s, hs, hk⟩] at hbefore
    rw [← Option.some.inj hbefore] at hget
    exact absurd hget (howners k)

theorem newSession_ne (h : key < c.nextSession) (c' : Context) : c.newSession ≠ .ok (key, c') := by
  unfold newSession
  split
  · simp
  · intro heq
    have hkey : c.nextSession = key := congrArg Prod.fst (Except.ok.inj heq)
    exact Nat.ne_of_lt h hkey.symm

end Context

namespace World

variable {w : World} {key : SessionKey} {deleted : Context}

theorem act_deleteSession (h : w.context.deleteSession key = .ok deleted) :
    w.act (.deleteSession key) = { w with context := deleted } := by
  simp only [act, Context.act, h]
  rfl

-- A deleted session has the resource that it had before.
theorem buried_deleteSession (hk : w.view.Keyed) (h : w.context.deleteSession key = .ok deleted) :
    (w.act (.deleteSession key)).view.Buried key
      ((deleted.session? key).bind Session.resourceId?) := by
  rw [act_deleteSession h]
  obtain ⟨s, hs, rfl⟩ := Context.deleteSession_eq h
  have hown : s.key = key := hk.own hs
  have hget : (w.context.store s.markDeleted).session? key = some s.markDeleted :=
    hown ▸ SortedMap.get?_insert_self _ _ _
  rw [hget, Option.bind_some]
  have hsame : ∀ t, (w.context.store s.markDeleted).session? key = some t → t = s.markDeleted :=
    fun t ht => Option.some.inj (ht.symm.trans hget)
  refine ⟨hk.below hs, fun t ht => ?_, fun t ht => ?_⟩
  · rw [hsame t ht]
    rfl
  · rw [hsame t ht]

end World

/-- **A deletion is final.** Once a session has been deleted, all that is ever emitted for it is that
a resource is taken down, and its key is not handed out again. It stays until it is pushed or the
context is closed; its push emits the removal of the resource that it had when it was deleted, or
nothing if it had none, and takes it out of the context with all index entries that lead to it. -/
theorem deletion_final (config : ClientConfig) (before after : List Action) {key : SessionKey}
    {deleted : Context}
    (hdeleted : (World.run config before).context.deleteSession key = .ok deleted) :
    let w := World.run config (before ++ .deleteSession key :: after)
    (∃ later, w.emitted = (World.run config before).emitted ++ later ∧
      ∀ i ∈ later, i.session? = some key → ∃ id, i = .removeResource key id) ∧
    (∀ c', w.context.newSession ≠ .ok (key, c')) ∧
    ((∀ a ∈ after, ¬ a.TakesDown key) → ∃ s, w.context.session? key = some s) ∧
    ∀ s, w.context.session? key = some s → s.deleted = true ∧
      s.resourceId? = (deleted.session? key).bind Session.resourceId? ∧
      (w.act (.push key)).emitted =
        w.emitted ++ s.resourceId?.toList.map (.removeResource key) ∧
      (w.act (.push key)).context.Cleared key s.subscriptionKeys := by
  intro w
  have hkeyed := World.keyed_run config before
  have hb₀ := World.buried_deleteSession hkeyed hdeleted
  have hk₀ := World.keyed_act hkeyed (.deleteSession key)
  have hemitted : ((World.run config before).act (.deleteSession key)).emitted =
      (World.run config before).emitted := by
    obtain ⟨s, -, hstore⟩ := Context.deleteSession_eq hdeleted
    rw [World.act_deleteSession hdeleted, hstore]
    rfl
  -- the rest of the run goes on from the world that the deletion leaves
  have hw : w = ((World.run config before).act (.deleteSession key)).acts after :=
    World.acts_append _ before _
  obtain ⟨hb, later, hlater, hspares⟩ := World.buried_acts hk₀ hb₀ after
  rw [← hw] at hb hlater
  rw [hemitted] at hlater
  refine ⟨⟨later, hlater, hspares⟩, Context.newSession_ne hb.below, fun hafter => ?_,
    fun s hs => ⟨hb.deleted s hs, hb.resource s hs, ?_, ?_⟩⟩
  · obtain ⟨s, hs, hstore⟩ := Context.deleteSession_eq hdeleted
    have hget : deleted.session? key = some s.markDeleted := by
      rw [hstore, ← hkeyed.own hs]
      exact SortedMap.get?_insert_self _ _ _
    rw [hw]
    refine World.exists_acts hk₀ hb₀ hafter (s := s.markDeleted) ?_
    rw [World.act_deleteSession hdeleted]
    exact hget
  · have hown : s.key = key := (World.keyed_run config _).own hs
    have hrelease : (s.push w.context.config).2 = s.release := by
      simp only [Session.push, hb.deleted s hs, if_true]
    rw [World.emitted_push (World.keyed_run config _) hs, hrelease, Session.release_eq, hown]
  · show (w.context.act (.push key)).Cleared key s.subscriptionKeys
    rw [Context.act_push_of_deleted hs (hb.deleted s hs)]
    exact Context.cleared_destroy (c := w.context.emit s.release) (World.indexed_run config _) hs

/-- A session waits for its creation when it is deleted. -/
def cutShort : List Action := [.newSession, .addSubscription 1 {}, .push 1]

/-- The answer comes late: what it created is removed, and the session is gone with the next
push, which emits nothing. -/
theorem deletion_final_cutShort :
    let w := World.run {} (cutShort ++ .deleteSession 1 ::
      [.event (.createResult 1 (.ok { resourceId := "r", subscriptionId := some "s" }))])
    w.emitted.map Intent.name = ["CreateResource", "RemoveResource", "DeleteSubscription"] ∧
      (w.act (.push 1)).emitted = w.emitted ∧ (w.act (.push 1)).context.Cleared 1 [1] := by
  intro w
  have hdeleted : (World.run {} cutShort).context.deleteSession 1 =
      .ok (World.run {} (cutShort ++ [.deleteSession 1])).context := rfl
  obtain ⟨-, -, hstays, hpush⟩ := deletion_final {} cutShort
    [.event (.createResult 1 (.ok { resourceId := "r", subscriptionId := some "s" }))] hdeleted
  obtain ⟨s, hs⟩ := hstays (by simp [Action.TakesDown, Action.Pushes])
  obtain ⟨-, hnone, hemitted, hcleared⟩ := hpush s hs
  have hsame : s = (w.context.session? 1).get rfl := (Option.get_of_mem _ hs).symm
  rw [hnone] at hemitted
  refine ⟨rfl, hemitted.trans (List.append_nil _), ?_⟩
  rw [hsame] at hcleared
  exact hcleared

end MbsClient
