import MbsClient.Proofs.Context.Attribution
import MbsClient.Proofs.Context.Ledger
import MbsClient.Proofs.Context.Pending
import MbsClient.Proofs.Session.Shape

/-!
# Shapes along a run — the state of a session says which of its parts are there

A run of flat records takes the steps of the run of sessions, but sets each part on its own. Its
records are those of the sessions (`flat_run`), so the state and the parts of a record go together
at any time (`lifecycle_shape`).
-/

namespace MbsClient

/-- Flat records by session, with the next key. -/
structure FlatView where
  sessions : SortedMap SessionKey FlatSession := .empty
  nextSession : SessionKey := 1

/-- A step of an action on flat records. A record is dropped only if its session is to be
destroyed. -/
def FlatView.apply (v : FlatView) : Transition → FlatView
  | .opened =>
      { sessions := v.sessions.insert v.nextSession { key := v.nextSession }
        nextSession := v.nextSession + 1 }
  | .moved key m =>
      match v.sessions.get? key with
      | none => v
      | some s =>
          match s.moved m with
          | (s', .keep) => { v with sessions := v.sessions.insert key s' }
          | (_, .destroy) => { v with sessions := v.sessions.erase key }
  | .orphaned _ => v

namespace View

def flat (v : View) : FlatView := ⟨v.sessions.map fun _ s => s.flat, v.nextSession⟩

theorem get?_flat (v : View) (key : SessionKey) :
    v.flat.sessions.get? key = (v.sessions.get? key).map Session.flat :=
  SortedMap.get?_map ..

theorem flat_insert (sessions : SortedMap SessionKey Session) (key : SessionKey) (s : Session) :
    (sessions.insert key s).map (fun _ s => s.flat) =
      (sessions.map fun _ s => s.flat).insert key s.flat := by
  apply SortedMap.ext_get?
  intro k
  rw [SortedMap.get?_map]
  by_cases hk : k = key
  · rw [hk, SortedMap.get?_insert_self, SortedMap.get?_insert_self, Option.map_some]
  · rw [SortedMap.get?_insert_of_ne _ hk, SortedMap.get?_insert_of_ne _ hk, SortedMap.get?_map]

theorem flat_erase (sessions : SortedMap SessionKey Session) (key : SessionKey) :
    (sessions.erase key).map (fun _ s => s.flat) = (sessions.map fun _ s => s.flat).erase key := by
  apply SortedMap.ext_get?
  intro k
  rw [SortedMap.get?_map]
  by_cases hk : k = key
  · rw [hk, SortedMap.get?_erase_self, SortedMap.get?_erase_self, Option.map_none]
  · rw [SortedMap.get?_erase_of_ne _ hk, SortedMap.get?_erase_of_ne _ hk, SortedMap.get?_map]

theorem flat_apply {v : View} (honce : ∀ k, v.subscribers.count k ≤ 1) (hl : v.Labelled)
    (t : Transition) : (v.apply t).flat = v.flat.apply t := by
  cases t with
  | opened =>
    rw [apply, FlatView.apply, flat, flat_insert]
    rfl
  | orphaned intents => rfl
  | moved key m =>
    rw [FlatView.apply, get?_flat]
    cases h : v.sessions.get? key with
    | none => rw [apply_moved_none h]; rfl
    | some s =>
      have hmatches := Session.flat_moved (nodup_of_count_subscribers honce h) (hl key s h) m
      rw [apply_moved h]
      simp only [Option.map_some]
      generalize (s.moved m).1 = s? at hmatches ⊢
      generalize s.flat.moved m = q at hmatches ⊢
      cases hmatches with
      | kept s' => rw [flat, put, flat_insert]; rfl
      | destroyed s' => rw [flat, put, flat_erase]; rfl

theorem flat_foldl {v : View} (hk : v.Keyed) (honce : ∀ k, v.subscribers.count k ≤ 1)
    (hl : v.Labelled) {ts : List Transition} (hts : ∀ t ∈ ts.dropLast, t.incoming = []) :
    (ts.foldl apply v).flat = ts.foldl FlatView.apply v.flat := by
  -- on the steps; no subscription is had twice as long as nothing has come in
  induction ts generalizing v with
  | nil => rfl
  | cons t ts ih =>
    have hfirst := flat_apply honce hl t
    cases ts with
    | nil => exact hfirst
    | cons u ts =>
      show ((u :: ts).foldl apply (v.apply t)).flat =
        (u :: ts).foldl FlatView.apply (v.flat.apply t)
      rw [← hfirst]
      refine ih (keyed_apply hk t) (fun k => ?_) (labelled_apply hl t) fun w hw =>
        hts w (List.mem_cons_of_mem _ hw)
      have hcount := count_subscribers_apply hk t k
      rw [hts t List.mem_cons_self, List.count_nil] at hcount
      exact Nat.le_trans hcount (honce k)

end View

namespace World

/-- The flat records after a run from the start. -/
def flatRun (config : ClientConfig) (actions : List Action) : FlatView :=
  (along (fun w a => w.context.script a) { context := { config } } actions).foldl FlatView.apply {}

theorem flat_run (config : ClientConfig) (actions : List Action) :
    flatRun config actions = (run config actions).view.flat := by
  induction actions using List.reverseRecOn with
  | nil => rfl
  | append_singleton actions a ih =>
    rw [flatRun, along_append, List.foldl_append, ← flatRun, ih, run_snoc,
      view_act (keyed_run config actions),
      View.flat_foldl (keyed_run config actions) (count_subscribers_run config actions)
        (labelled_run config actions) (Context.incoming_dropLast_script _ a),
      along, along, List.append_nil]
    rfl

theorem unsent_run (config : ClientConfig) (actions : List Action) :
    (run config actions).view.All Session.Unsent :=
  all_run Session.unsent_new (fun _ _ _ _ _ h hs' => Session.unsent_moved h hs') actions

end World

/-- **The state of a session says which of its parts are there.** In a run of flat records, where
every part is set and reset on its own, each record is that of the session that the context holds
under the key, and it has the parts that its state asks for and no others. -/
theorem lifecycle_shape (config : ClientConfig) (actions : List Action) (key : SessionKey) :
    (World.flatRun config actions).sessions.get? key =
        ((World.run config actions).context.session? key).map Session.flat ∧
      ∀ s, (World.flatRun config actions).sessions.get? key = some s → s.Shape := by
  have hflat : (World.flatRun config actions).sessions.get? key =
      ((World.run config actions).context.session? key).map Session.flat := by
    rw [World.flat_run]
    exact View.get?_flat ..
  refine ⟨hflat, fun t ht => ?_⟩
  rw [hflat, Option.map_eq_some_iff] at ht
  obtain ⟨s, hs, rfl⟩ := ht
  exact Session.shape_flat (World.unsent_run config actions key s hs)
    (World.marked_run config actions key s hs).rides
    (World.onTrack_run config actions key s hs)

end MbsClient
