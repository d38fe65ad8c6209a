import MbsClient.Proofs.Context.Script
import MbsClient.Proofs.Session.Holdings

/-!
# Ledgers — counting ids over the sessions of a context

An action brings ids in only if it is a successful answer to a creation. Any other is made of moves
that bring none, and what those do to the holdings of a session is known (`Session.effect_moved`).
-/

namespace MbsClient

/-! ## 1. Actions that bring no id in -/

namespace Action

/-- Not a successful answer to a creation. -/
def Closed : Action → Prop
  | .event (.createResult _ (.ok _)) => False
  | .event (.subscriptionCreated _ (.ok _)) => False
  | _ => True

theorem closed_or (a : Action) :
    a.Closed ∨ (∃ key answer, a = .event (.createResult key (.ok answer))) ∨
      ∃ key ack, a = .event (.subscriptionCreated key (.ok ack)) := by
  cases a with
  | event e =>
    cases e with
    | createResult key result =>
      cases result with
      | ok answer => exact .inr (.inl ⟨key, answer, rfl⟩)
      | error problem => exact .inl trivial
    | subscriptionCreated key result =>
      cases result with
      | ok ack => exact .inr (.inr ⟨key, ack, rfl⟩)
      | error problem => exact .inl trivial
    | _ => exact .inl trivial
  | _ => exact .inl trivial

end Action

namespace Transition

def Closed : Transition → Prop
  | .opened => True
  | .moved _ m => m.Closed
  | .orphaned _ => False

end Transition

theorem Context.closed_script {c : Context} {a : Action} (ha : a.Closed) :
    ∀ t ∈ c.script a, t.Closed := by
  intro t ht
  cases Context.makes_of_mem_script ht with
  | created => exact ha.elim
  | abandoned => exact ha.elim
  | confirmed => exact ha.elim
  | unclaimed => exact ha.elim
  | _ => trivial

/-! ## 2. Labels along a run -/

namespace View

def Labelled (v : View) : Prop := ∀ key s, v.sessions.get? key = some s → s.Labelled

theorem labelled_apply {v : View} (hl : v.Labelled) (t : Transition) : (v.apply t).Labelled := by
  intro key s' h
  cases sessionFrom h with
  | kept hs => exact hl key s' hs
  | opened hkey hs => exact hs ▸ Session.labelled_new key
  | moved hs hm => exact Session.labelled_moved (hl key _ hs) hm

theorem labelled_foldl {v : View} (hl : v.Labelled) (ts : List Transition) :
    (ts.foldl apply v).Labelled := by
  induction ts generalizing v with
  | nil => exact hl
  | cons t ts ih => exact ih (labelled_apply hl t)

/-! ## 3. Counting -/

section

variable {α : Type} [BEq α]

/-- Of each session, what `f` says of it. -/
def held (f : Session → List α) (v : View) : List α := v.sessions.values.flatMap f

theorem count_held_put {v : View} {key : SessionKey} {s : Session}
    (h : v.sessions.get? key = some s) (f : Session → List α) (a : α)
    (s? : Option Session) (intents : List Intent) :
    ((v.put key s? intents).held f).count a + (f s).count a =
      (v.held f).count a + ((s?.map f).getD []).count a := by
  cases s? with
  | none =>
    have herase := v.sessions.count_erase f a key
    rw [h] at herase
    exact herase
  | some s' =>
    have hinsert := v.sessions.count_insert f a key s'
    rw [h] at hinsert
    exact hinsert

-- A session that opens holds nothing.
theorem count_held_opened {v : View} (hk : v.Keyed) {f : Session → List α}
    (hf : ∀ key, f { key } = []) (a : α) :
    ((v.apply .opened).held f).count a = (v.held f).count a := by
  have hnone : v.sessions.get? v.nextSession = none := by
    cases h : v.sessions.get? v.nextSession with
    | none => rfl
    | some s => exact absurd (hk.below h) (Nat.lt_irrefl _)
  have hinsert := v.sessions.count_insert f a v.nextSession { key := v.nextSession }
  rw [hnone, hf] at hinsert
  exact hinsert

end

end View

namespace World

theorem labelled_run (config : ClientConfig) (actions : List Action) :
    (run config actions).view.Labelled := by
  induction actions using List.reverseRecOn with
  | nil =>
    intro key s h
    simp [run, acts, view, Context.view] at h
  | append_singleton actions a ih =>
    rw [run_snoc, view_act (keyed_run config actions)]
    exact View.labelled_foldl ih _

/-! ## 4. Successful answers -/

-- The session waits for the answer.
theorem view_act_created {w : World} (hk : w.view.Keyed) {key : SessionKey} {s : Session}
    {body : MbsSession} {bundled : Option SubscriptionKey} (hs : w.context.session? key = some s)
    (hw : s.waitingFor? = some (body, bundled)) (answer : SessionCreated) :
    (w.act (.event (.createResult key (.ok answer)))).view =
      w.view.put key (some (s.created body bundled answer).1) [] := by
  have hget : w.view.sessions.get? key = some s := hs
  rw [view_act hk]
  simp only [Context.script, Context.handleMoves, Context.sessionCreatedMoves, hs,
    Option.bind_some, hw, Option.isSome_some, if_true, List.foldl_cons, List.foldl_nil]
  rw [View.apply_moved hget, Session.moved, hw]

theorem view_act_orphan {w : World} (hk : w.view.Keyed) {key : SessionKey}
    (hw : (w.context.session? key).bind Session.waitingFor? = none) (answer : SessionCreated) :
    (w.act (.event (.createResult key (.ok answer)))).view =
      w.view.apply (.orphaned (Context.removeOrphan key (.ok answer))) := by
  rw [view_act hk]
  simp [Context.script, Context.handleMoves, Context.sessionCreatedMoves, hw]

-- The session that holds the subscription takes the answer in.
theorem view_act_confirmed {w : World} (hk : w.view.Keyed) {key : SubscriptionKey} {o : SessionKey}
    {s s' : Session} {ack : SubscriptionAck} {calls : List Call}
    (ho : w.context.owners.get? key = some o) (hs : w.context.session? o = some s)
    (hc : s.subscriptionCreated? key (.ok ack) = some (s', calls)) :
    (w.act (.event (.subscriptionCreated key (.ok ack)))).view = w.view.put o (some s') [] := by
  have hget : w.view.sessions.get? o = some s := hs
  rw [view_act hk, Context.script_confirmed]
  simp only [Context.subscriptionCreatedMoves, Context.ownerMoves, ho, Option.bind_some, hs, hc,
    Option.isSome_some, if_true, List.foldl_cons, List.foldl_nil]
  rw [View.apply_moved hget, Session.moved, hc]

theorem view_act_unclaimed {w : World} (hk : w.view.Keyed) {key : SubscriptionKey}
    {ack : SubscriptionAck}
    (hc : ((w.context.owners.get? key).bind w.context.session?).bind
      (·.subscriptionCreated? key (.ok ack)) = none) :
    (w.act (.event (.subscriptionCreated key (.ok ack)))).view =
      w.view.apply (.orphaned [.deleteSubscription ack.id]) := by
  rw [view_act hk, Context.script_confirmed]
  simp [Context.subscriptionCreatedMoves, hc]

end World

end MbsClient
