import MbsClient.Proofs.Context.Ledger

/-!
# Releases — the sessions whose resource an action takes down

Only a push of a session that is deleted or has another identity, and the end of the context, take
resources down. The removal of each is sent (`removed_of_released`), and the ids of its
subscriptions go without one (`count_ids_moved`).
-/

namespace MbsClient

open Intent

/-! ## 1. The ids of a session -/

namespace Session

/-- The subscriptions of a session that the MB-SMF knows, by their ids. -/
def ids (s : Session) : List String := s.active.keys ++ s.pendingDelete.map Prod.fst

theorem ids_eq (s : Session) :
    s.ids = (s.holdings?.map fun h => h.active ++ h.leaving).getD [] := by
  cases hr : s.remote <;>
    simp [ids, active, pendingDelete, holdings?, resource?, hr, Remote.resource?,
      Resource.holdings, SortedMap.keys, SortedMap.empty]

theorem ids_of_holdings? {s : Session} {h : Holdings} (hs : s.holdings? = some h) :
    s.ids = h.active ++ h.leaving := by
  rw [ids_eq, hs]
  rfl

theorem ids_of_holdings?_none {s : Session} (hs : s.holdings? = none) : s.ids = [] := by
  rw [ids_eq, hs]
  rfl

-- With the resource, ids go without deletions.
theorem deletions_of_releases {s : Session} (hl : s.Labelled) {m : Move} (hc : m.Closed)
    (hm : s.releases m = true) : deletions (s.moved m).2 = [] := by
  have heffect := effect_moved hl hc
  have hnone : ∀ s', (s.moved m).1 = some s' → s'.holdings? = none :=
    fun s' => holdings?_of_releases hm
  generalize (s.moved m).1 = s?, (s.moved m).2 = intents at heffect hnone
  cases heffect with
  | kept hkept hrem hdel => exact hdel
  | left hs hperm hs' hrem hdel => simp [hnone _ rfl] at hs'
  | queued hs hperm hs' hrem hdel => exact hdel
  | flushed hs hs' hrem hdel => simp [hnone _ rfl] at hs'
  | released hm' hs hs' hrem hdel => exact hdel
  | gone hs hrem hdel => exact hdel

-- A move that brings no id in keeps an id or sends its deletion, unless the resource goes.
theorem count_ids_moved {s : Session} (hl : s.Labelled) {m : Move} (hm : m.Closed) (id : String) :
    s.ids.count id =
      (((s.moved m).1.map ids).getD []).count id + (deletions (s.moved m).2).count id +
        (if s.releases m then s.ids else []).count id := by
  cases hreleases : s.releases m with
  | true =>
    -- all ids of the session stand in the last summand
    have hafter : ((s.moved m).1.map ids).getD [] = [] := by
      cases hs' : (s.moved m).1 with
      | none => rfl
      | some s' => exact ids_of_holdings?_none (holdings?_of_releases hreleases hs')
    rw [hafter, deletions_of_releases hl hm hreleases, if_pos rfl, List.count_nil, Nat.zero_add]
  | false =>
    have heffect := effect_moved hl hm
    generalize (s.moved m).1 = s?, (s.moved m).2 = intents at heffect
    cases heffect with
    | kept hkept hrem hdel => simp [ids_eq, hkept, hdel]
    | left hs hperm hs' hrem hdel =>
      have hcount := hperm.count_eq id
      rw [ids_of_holdings? hs, Option.map_some, ids_of_holdings? hs', hdel]
      simp only [List.count_append, List.count_cons, List.count_nil, Option.getD_some,
        Bool.false_eq_true, if_false] at hcount ⊢
      omega
    | queued hs hperm hs' hrem hdel =>
      have hcount := hperm.count_eq id
      rw [ids_of_holdings? hs, Option.map_some, ids_of_holdings? hs', hdel]
      simp only [List.count_append, List.count_cons, List.count_nil, Option.getD_some,
        Bool.false_eq_true, if_false] at hcount ⊢
      omega
    | flushed hs hs' hrem hdel =>
      rw [ids_of_holdings? hs, Option.map_some, ids_of_holdings? hs', hdel]
      simp
    | released hm' hs hs' hrem hdel => simp [hreleases] at hm'
    | gone hs hrem hdel => simp [ids_of_holdings?_none hs, hdel]

end Session

/-! ## 2. Releases of a script -/

namespace Transition

/-- Takes no resource down. -/
def Stays : Transition → Prop
  | .moved _ m => ∀ s : Session, s.releases m = false
  | _ => True

end Transition

namespace View

/-- The session whose resource a step takes down. -/
def releasing (v : View) : Transition → List Session
  | .moved key m => (v.sessions.get? key).toList.filter fun s => s.releases m
  | _ => []

/-- The sessions whose resources the steps take down, one after the other. -/
def releasings (v : View) : List Transition → List Session
  | [] => []
  | t :: ts => v.releasing t ++ (v.apply t).releasings ts

-- The removal of the resource that a released session has is sent.
theorem removed_of_mem_releasings {v : View} (hl : v.Labelled) {ts : List Transition}
    (hts : ∀ t ∈ ts, t.Closed) {s : Session} (hs : s ∈ v.releasings ts) {r : String}
    (hr : s.resourceId? = some r) :
    ∃ key, .removeResource key r ∈ (ts.foldl apply v).emitted := by
  induction ts generalizing v with
  | nil => simp [releasings] at hs
  | cons t ts ih =>
    rw [List.foldl_cons]
    rcases List.mem_append.1 hs with hfirst | hlater
    · cases t with
      | opened => simp [releasing] at hfirst
      | orphaned intents => simp [releasing] at hfirst
      | moved key m =>
        obtain ⟨hget, hreleases⟩ := List.mem_filter.1 hfirst
        have hget : v.sessions.get? key = some s := Option.mem_toList.1 hget
        obtain ⟨k, hremoved⟩ := mem_removals.1 (Session.mem_removals_of_releases (hl key s hget)
          (hts _ List.mem_cons_self) hreleases hr)
        have hstays := (emitted_foldl (v.apply (.moved key m)) ts).subset
        rw [apply_moved hget] at hstays ⊢
        exact ⟨k, hstays (List.mem_append_right _ hremoved)⟩
    · exact ih (labelled_apply hl t) (fun u hu => hts u (List.mem_cons_of_mem _ hu)) hlater

/-- The ids that are held or have been deleted. -/
def registered (v : View) : List String := v.held Session.ids ++ deletions v.emitted

-- A step that brings no id in keeps an id or sends its deletion, unless a resource goes.
theorem count_registered_apply {v : View} (hk : v.Keyed) (hl : v.Labelled) {t : Transition}
    (ht : t.Closed) (id : String) :
    (v.apply t).registered.count id + ((v.releasing t).flatMap Session.ids).count id =
      v.registered.count id := by
  simp only [registered, List.count_append]
  cases t with
  | opened =>
    rw [count_held_opened hk fun _ => rfl]
    rfl
  | moved key m =>
    cases h : v.sessions.get? key with
    | none =>
      rw [apply_moved_none h]
      simp [releasing, h]
    | some s =>
      have hput := count_held_put h Session.ids id (s.moved m).1 (s.moved m).2
      have hmoved := Session.count_ids_moved (hl key s h) ht id
      have hreleasing : (v.releasing (.moved key m)).flatMap Session.ids =
          if s.releases m then s.ids else [] := by
        simp only [releasing, h, Option.toList_some, List.filter_cons, List.filter_nil]
        split <;> simp
      rw [apply_moved h, hreleasing]
      simp only [put, deletions_append, List.count_append] at hput ⊢
      omega
  | orphaned intents => exact ht.elim

theorem count_registered_foldl {v : View} (hk : v.Keyed) (hl : v.Labelled) {ts : List Transition}
    (hts : ∀ t ∈ ts, t.Closed) (id : String) :
    (ts.foldl apply v).registered.count id + ((v.releasings ts).flatMap Session.ids).count id =
      v.registered.count id := by
  induction ts generalizing v with
  | nil => rfl
  | cons t ts ih =>
    have hfirst := count_registered_apply hk hl (hts t List.mem_cons_self) id
    have hlater := ih (keyed_apply hk t) (labelled_apply hl t)
      fun u hu => hts u (List.mem_cons_of_mem _ hu)
    rw [List.foldl_cons, releasings, List.flatMap_append, List.count_append]
    omega

/-! ### Steps that release nothing, and steps of session after session -/

theorem releasings_eq_nil {v : View} {ts : List Transition} (h : ∀ t ∈ ts, t.Stays) :
    v.releasings ts = [] := by
  induction ts generalizing v with
  | nil => rfl
  | cons t ts ih =>
    rw [releasings, ih fun u hu => h u (List.mem_cons_of_mem _ hu), List.append_nil]
    cases t with
    | opened => rfl
    | orphaned intents => rfl
    | moved key m =>
      have hstays : ∀ s : Session, s.releases m = false := h _ List.mem_cons_self
      simp [releasing, hstays]

theorem releasings_map {v : View} {keys : List SessionKey} (hkeys : keys.Nodup)
    (m : Session.Move) :
    v.releasings (keys.map fun key => .moved key m) =
      (keys.flatMap fun key => (v.sessions.get? key).toList).filter fun s => s.releases m := by
  induction keys generalizing v with
  | nil => rfl
  | cons key keys ih =>
    obtain ⟨hnew, hrest⟩ := List.nodup_cons.1 hkeys
    -- the other sessions have not moved yet
    have hlater : (keys.flatMap fun k => ((v.apply (.moved key m)).sessions.get? k).toList) =
        keys.flatMap fun k => (v.sessions.get? k).toList := by
      apply List.flatMap_congr
      intro k hk
      have hne : k ≠ key := fun heq => hnew (by rwa [← heq])
      rw [get?_apply_moved, if_neg hne]
    rw [List.map_cons, releasings, ih hrest, hlater, List.flatMap_cons, List.filter_append]
    rfl

end View

/-! ## 3. Releases of an action -/

namespace World

/-- The sessions of which an action takes the resource down, if they have one. -/
def released (w : World) : Action → List Session
  | .push key => (w.context.session? key).toList.filter fun s => s.deleted || s.identityChanged
  | .pushAll => w.context.sessions.values.filter fun s => s.deleted || s.identityChanged
  | .close => w.context.sessions.values
  | _ => []

-- The steps of an action release the sessions that the action releases.
theorem releasings_script (w : World) (a : Action) :
    w.view.releasings (w.context.script a) = w.released a := by
  have hall : (w.context.sessions.keys.flatMap fun key => (w.view.sessions.get? key).toList) =
      w.context.sessions.values := SortedMap.flatMap_keys _
  cases a with
  | push key =>
    show (_ ++ [] : List Session) = _
    rw [List.append_nil]
    rfl
  | pushAll =>
    show w.view.releasings (w.context.sessions.keys.map fun key => .moved key _) = _
    rw [View.releasings_map (SortedMap.nodup_keys _), hall]
    rfl
  | close =>
    show w.view.releasings (w.context.sessions.keys.map fun key => .moved key _) = _
    rw [View.releasings_map (SortedMap.nodup_keys _), hall]
    exact List.filter_eq_self.2 fun _ _ => rfl
  | _ =>
    apply View.releasings_eq_nil
    intro t ht
    cases Context.makes_of_mem_script ht <;> first | trivial | exact fun _ => rfl

-- An action that releases a session removes its resource.
theorem removed_of_released {w : World} (hk : w.view.Keyed) (hl : w.view.Labelled) {a : Action}
    {s : Session} (hs : s ∈ w.released a) {r : String} (hr : s.resourceId? = some r) :
    ∃ key, .removeResource key r ∈ (w.act a).emitted := by
  rcases a.closed_or with ha | ⟨key, answer, rfl⟩ | ⟨key, ack, rfl⟩
  · rw [← releasings_script] at hs
    have hremoved := View.removed_of_mem_releasings hl (Context.closed_script ha) hs hr
    rwa [← view_act hk] at hremoved
  · simp [released] at hs
  · simp [released] at hs

end World

end MbsClient
