import MbsClient.Proofs.Context.Kept
import MbsClient.Proofs.Context.Pending
import MbsClient.Proofs.Session.BringUp
import MbsClient.Proofs.Session.Outstanding

/-!
# Re-creation — a session gets a new resource and keeps its subscriptions

A registered session with another identity is removed and created anew. What its push leaves is what
the creation of a fresh session leaves, one that has all the wanted subscriptions as new ones
(`Session.push_of_changed`). So the first of them is registered with the session, and the next push
after the answer creates each of the others once (`recreate_registers_each_once`).
-/

namespace MbsClient

namespace Session

variable {s t : Session} {r : Resource}

/-! ## 1. Sessions without their resource -/

/-- The session when its resource is gone: nothing has been sent of it or its subscriptions. -/
def renewed (s : Session) : Session := { s.requeue with dirty := true }

/-- The record that creates a subscription anew. -/
def admission (config : ClientConfig) (s : Session) (sub : Subscription) :
    MbsSessionSubscription :=
  (sub.forgetRemote.sendCreate s.data.mbsSessionId config.notificationServers).data

theorem map_key_forgetRemote (subs : List Subscription) :
    (subs.map Subscription.forgetRemote).map Subscription.key = subs.map Subscription.key := by
  rw [List.map_map]
  rfl

theorem nodup_wantedKeys (hn : s.subscriptionKeys.Nodup) :
    (s.subscriptions.map Subscription.key).Nodup :=
  (List.nodup_append.1 hn).1

theorem fresh_renewed (hkept : s.deleted = false) (hn : s.subscriptionKeys.Nodup) :
    s.renewed.Fresh where
  kept := hkept
  remote := rfl
  dirty := rfl
  once := (map_key_forgetRemote s.subscriptions).symm ▸ nodup_wantedKeys hn
  due sub hsub := by
    obtain ⟨sub', -, rfl⟩ := List.mem_map.1 hsub
    rfl

/-- The request that creates the session anew. -/
theorem creation_renewed (config : ClientConfig) (s : Session) :
    s.renewed.creation config = .createResource s.key s.data
      (s.subscriptions.head?.map fun sub => ⟨sub.key, s.admission config sub⟩) := by
  simp only [creation, renewed, requeue, List.head?_map, Option.map_map]
  rfl

-- Whatever is on its way for the old resource, the session starts afresh.
theorem push_of_changed (h : s.Recreates) (hr : s.remote = .registered r)
    (hn : s.subscriptionKeys.Nodup) (config : ClientConfig) :
    s.push config = (some (s.renewed.asked config),
      [.removeResource s.key r.id, s.renewed.creation config]) := by
  have hkept : s.deleted = false := (registered_of_state h.1).1
  have hpush : s.renewed.push config =
      (some (s.requeue.create config).1, [(s.requeue.create config).2]) := by
    rw [push, (fresh_renewed hkept hn).kept]
    rfl
  obtain ⟨hleft, hsent⟩ :=
    Prod.mk.inj (hpush.symm.trans (push_of_fresh (fresh_renewed hkept hn) config))
  rw [push_of_recreates h, hleft, hsent, release, hr]
  rfl

theorem pendingNew_asked_renewed (config : ClientConfig) (s : Session) :
    (s.renewed.asked config).pendingNew.map Subscription.key =
        s.subscriptions.map Subscription.key ∧
      ∀ sub ∈ (s.renewed.asked config).pendingNew, sub.id = none := by
  have hnew : (s.renewed.asked config).pendingNew =
      (s.subscriptions.map Subscription.forgetRemote).modifyHead
        (Subscription.sendCreate s.data.mbsSessionId config.notificationServers) := rfl
  rw [hnew]
  cases s.subscriptions with
  | nil => exact ⟨rfl, fun sub hsub => absurd hsub List.not_mem_nil⟩
  | cons first rest =>
    refine ⟨congrArg (first.key :: ·) (map_key_forgetRemote rest), fun sub hsub => ?_⟩
    rcases List.mem_cons.1 hsub with rfl | hsub
    · rfl
    · obtain ⟨sub', -, rfl⟩ := List.mem_map.1 hsub
      rfl

/-! ## 2. What is still to be sent -/

-- All that a granted session has to send about subscriptions are creations.
theorem dueRequests_of_granted (h : Granted s t r) (hdue : ∀ sub ∈ t.pendingNew, sub.isDue = true)
    (config : ClientConfig) : t.dueRequests config r = t.creations config r.id t.pendingNew := by
  have hactive : r.active.entries.filterMap dueChange? = [] := by
    rw [List.filterMap_eq_nil_iff]
    intro e he
    have hsub : e.2 ∈ r.active.values := List.mem_map_of_mem he
    rw [dueChange?, isDue_of_clean (h.settled e.2 hsub).1]
    rfl
  rw [dueRequests, dueCreations, List.filter_eq_self.2 hdue, hactive, h.leaving]
  simp only [List.append_nil, List.map_nil]
  rfl

-- After a re-creation these are creations of all subscriptions but the first.
theorem requests_of_recreated (hmarked : t.Marked) (h : Granted s.renewed t r)
    (hdata : t.data = s.data)
    (hnew : t.pendingNew = s.subscriptions.tail.map Subscription.forgetRemote)
    (config : ClientConfig) :
    (t.push config).2.filter Intent.isForSubscription = s.subscriptions.tail.map fun sub =>
      .createSubscription s.key sub.key r.id (s.admission config sub) := by
  have hdue : ∀ sub ∈ t.pendingNew, sub.isDue = true := by
    intro sub hsub
    obtain ⟨sub', -, rfl⟩ := List.mem_map.1 (hnew ▸ hsub)
    rfl
  have hkey : t.key = s.key := h.key
  rw [requests_push hmarked.tracked hmarked.flagged h.remote h.kept h.identityChanged config,
    dueRequests_of_granted h hdue, creations, hnew, List.map_map, hkey]
  refine List.map_congr_left fun sub _ => ?_
  simp only [Function.comp_apply, sentUnder, admission, hdata]
  rfl

end Session

/-! ## 3. Along a run -/

namespace World

variable {w : World} {key : SessionKey} {s : Session}

-- The session that a push leaves is found.
theorem session?_act_push (hk : w.view.Keyed) {s' : Session} {intents : List Intent}
    (hs : w.context.session? key = some s)
    (hpush : s.push w.context.config = (some s', intents)) :
    (w.act (.push key)).context.session? key = some s' := by
  have hview := congrArg View.sessions (view_act hk (.push key))
  have hget : w.view.sessions.get? key = some s := hs
  rw [Context.session?, show (w.act (.push key)).context.sessions = _ from hview]
  simp only [Context.script, List.foldl_cons, List.foldl_nil]
  rw [View.get?_apply_moved, if_pos rfl, hget, Option.bind_some, Session.moved, hpush]

end World

section

variable {config : ClientConfig} {actions : List Action} {s : Session}
  (hs : (World.run config actions).context.session? s.key = some s) (hrecreates : s.Recreates)

include hs hrecreates

-- The session that is to be created anew, and its push.
theorem World.push_of_changed :
    s.renewed.Fresh ∧ ∃ r, s.remote = .registered r ∧ s.push config =
      (some (s.renewed.asked config), [.removeResource s.key r.id, s.renewed.creation config]) := by
  obtain ⟨hkept, r, hr⟩ := Session.registered_of_state hrecreates.1
  have hn : s.subscriptionKeys.Nodup :=
    View.nodup_of_count_subscribers (count_subscribers_run config actions) hs
  exact ⟨Session.fresh_renewed hkept hn, r, hr, Session.push_of_changed hrecreates hr hn config⟩

theorem World.session?_recreated :
    (run config (actions ++ [.push s.key])).context.session? s.key =
      some (s.renewed.asked config) := by
  obtain ⟨-, r, -, hpush⟩ := push_of_changed hs hrecreates
  have hconfig : (run config actions).context.config = config := config_run config actions
  rw [run_snoc]
  exact session?_act_push (keyed_run config actions) hs (by rw [hconfig]; exact hpush)

-- What the answer to the creation leaves.
theorem World.session?_answered {answer : SessionCreated} (htmgi : answer.tmgi = none)
    {id : String} (hid : s.subscriptions ≠ [] → answer.subscriptionId = some id) :
    ∃ t r, (run config (actions ++ [.push s.key] ++
        [.event (.createResult s.key (.ok answer))])).context.session? s.key = some t ∧
      Session.Granted s.renewed t r ∧ t.data = s.data ∧ r.id = answer.resourceId ∧
      r.active.entries.map (fun e => (e.1, e.2.key)) =
        (s.subscriptions.head?.map fun sub => (id, sub.key)).toList ∧
      t.pendingNew = s.subscriptions.tail.map Subscription.forgetRemote := by
  obtain ⟨hfresh, -⟩ := push_of_changed hs hrecreates
  have hid' : s.renewed.pendingNew ≠ [] → answer.subscriptionId = some id := fun hnew =>
    hid fun hnone => hnew (by rw [Session.renewed, Session.requeue, hnone]; rfl)
  obtain ⟨t, r, hcreated, hgranted, hdata, hr, hactive, hnew, -⟩ :=
    Session.created_of_answer hfresh config (by simp [htmgi]) hid'
  have hanswered := Context.act_created (session?_recreated hs hrecreates)
    (Session.waitingFor?_asked hfresh config) answer
  rw [hcreated] at hanswered
  refine ⟨t, r, ?_, hgranted, by rw [hdata, htmgi]; rfl, hr, ?_, ?_⟩
  · have hfound := Context.session?_settle (run config (actions ++ [.push s.key])).context t
    rw [← hanswered, hgranted.key] at hfound
    rw [run_snoc]
    exact hfound
  · rw [hactive, Session.renewed, Session.requeue, List.head?_map]
    cases s.subscriptions.head? <;> rfl
  · rw [hnew, List.map_tail]
    rfl

end

/-- **A re-creation keeps every subscription and registers each once.** A registered session with
another identity than the acknowledged one has some subscriptions that are new and some that are
active, whatever is on its way for them. A push emits that the resource is removed and a new one
created, with the current record and the first subscription, and nothing else; then all
subscriptions are new, in the same order, and none has an id. If the next events are an answer that
grants the creation, without a TMGI, and another push, the first subscription is active under the id
that the answer has for it, and the push emits one creation under the new resource for each of the
others, in order, and nothing else about subscriptions. -/
theorem recreate_registers_each_once (config : ClientConfig) (actions : List Action)
    {key : SessionKey} {s : Session}
    (hs : (World.run config actions).context.session? key = some s)
    (hstate : s.state = .registered) (hchanged : s.identityChanged = true) :
    let w := World.run config actions
    let pushed := w.act (.push key)
    (s.subscriptions.map Subscription.key).Nodup ∧
    (∃ r, s.remote = .registered r ∧ pushed.emitted = w.emitted ++
      [.removeResource key r.id, .createResource key s.data
        (s.subscriptions.head?.map fun sub => ⟨sub.key, s.admission config sub⟩)]) ∧
    (∃ t, pushed.context.session? key = some t ∧ t.state = .createPending ∧
      t.active.values = [] ∧ t.pendingDelete = [] ∧
      t.pendingNew.map Subscription.key = s.subscriptions.map Subscription.key ∧
      ∀ sub ∈ t.pendingNew, sub.id = none) ∧
    ∀ (answer : SessionCreated) (id : String), answer.tmgi = none →
      (s.subscriptions ≠ [] → answer.subscriptionId = some id) →
      let answered := pushed.act (.event (.createResult key (.ok answer)))
      (∃ t, answered.context.session? key = some t ∧ t.state = .registered ∧
        t.resourceId? = some answer.resourceId ∧
        t.active.entries.map (fun e => (e.1, e.2.key)) =
          (s.subscriptions.head?.map fun sub => (id, sub.key)).toList) ∧
      ∃ sent, (answered.act (.push key)).emitted = answered.emitted ++ sent ∧
        sent.filter Intent.isForSubscription = s.subscriptions.tail.map fun sub =>
          .createSubscription key sub.key answer.resourceId (s.admission config sub) := by
  intro w pushed
  have hk := World.keyed_run config actions
  obtain rfl : s.key = key := hk.own hs
  have hrecreates : s.Recreates := ⟨hstate, hchanged⟩
  have hconfig : w.context.config = config := World.config_run config actions
  obtain ⟨hfresh, r, hr, hpush⟩ := World.push_of_changed hs hrecreates
  have hn := Session.nodup_wantedKeys
    (View.nodup_of_count_subscribers (World.count_subscribers_run config actions) hs)
  have hrun : pushed = World.run config (actions ++ [.push s.key]) :=
    (World.run_snoc config actions _).symm
  refine ⟨hn, ⟨r, hr, ?_⟩, ⟨s.renewed.asked config, ?_, ?_, rfl, rfl,
    Session.pendingNew_asked_renewed config s⟩, fun answer id htmgi hid => ?_⟩
  · rw [World.emitted_push hk hs, hconfig, hpush, Session.creation_renewed]
  · rw [hrun]
    exact World.session?_recreated hs hrecreates
  · have hkept : (s.renewed.asked config).deleted = false := hfresh.kept
    rw [Session.state, hkept]
    rfl
  · intro answered
    have hrun' : answered = World.run config (actions ++ [.push s.key] ++
        [.event (.createResult s.key (.ok answer))]) := by
      rw [World.run_snoc, ← hrun]
    obtain ⟨t, r', ht, hgranted, hdata, hr', hactive, hnew⟩ :=
      World.session?_answered hs hrecreates htmgi hid
    have hmarked := World.marked_run config _ s.key t ht
    have hconfig' := World.config_run config (actions ++ [.push s.key] ++
      [.event (.createResult s.key (.ok answer))])
    have hrequests := Session.requests_of_recreated hmarked hgranted hdata hnew config
    rw [hrun']
    refine ⟨⟨t, ht, ?_, ?_, ?_⟩, _, World.emitted_push (World.keyed_run config _) ht, ?_⟩
    · rw [Session.state, hgranted.kept, hgranted.remote]
      rfl
    · rw [Session.resourceId?, Session.resource?, hgranted.remote, ← hr']
      rfl
    · rw [Session.active_of_registered hgranted.remote, hactive]
    · rw [hconfig', hrequests, hr']

/-- A session with a subscription that the MB-SMF knows, and one that it does not, takes a TMGI. -/
def retuned : List Action :=
  [.newSession, .addSubscription 1 {}, .push 1,
    .event (.createResult 1 (.ok { resourceId := "a", subscriptionId := some "x" })),
    .addSubscription 1 {},
    .changeSession 1 (.tmgi (some ⟨"0000AB", ⟨"001", "01"⟩⟩))]

/-- The new subscription is registered with the session, and the other one after it. -/
theorem recreate_registers_each_once_retuned :
    let pushed := (World.run {} retuned).act (.push 1)
    let answered := pushed.act
      (.event (.createResult 1 (.ok { resourceId := "b", subscriptionId := some "y" })))
    (∃ t, answered.context.session? 1 = some t ∧
      t.active.entries.map (fun e => (e.1, e.2.key)) = [("y", 2)]) ∧
    ∃ sent data, (answered.act (.push 1)).emitted = answered.emitted ++ sent ∧
      sent.filter Intent.isForSubscription = [.createSubscription 1 1 "b" data] := by
  intro pushed answered
  let s := ((World.run {} retuned).context.session? 1).get rfl
  have hs : (World.run {} retuned).context.session? 1 = some s := (Option.some_get _).symm
  obtain ⟨-, -, -, hgranted⟩ := recreate_registers_each_once {} retuned hs rfl rfl
  obtain ⟨⟨t, ht, -, -, hactive⟩, sent, hemitted, hsent⟩ :=
    hgranted { resourceId := "b", subscriptionId := some "y" } "y" rfl fun _ => rfl
  exact ⟨⟨t, ht, hactive⟩, sent, _, hemitted, hsent⟩

end MbsClient
