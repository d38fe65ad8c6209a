import MbsClient.Proofs.Session.Simulation
import MbsClient.Proofs.Session.Body

/-!
# Shapes — the parts of a session that go together

How far the MB-SMF knows of a session decides which parts of its flat record are there
(`FlatSession.Shape`). For a session this comes from three properties that all moves keep: one that
is not known is dirty (`unsent_moved`), its new subscriptions wait for nothing but what it has sent,
and the one that rides on a creation waits for it.
-/

namespace MbsClient

/-- Which parts of a session are there, state by state. -/
structure FlatSession.Shape (s : FlatSession) : Prop where
  unregistered : s.phase = .unregistered →
    s.dirty = true ∧ s.resourceId = none ∧ s.acked = none ∧ s.creating = none ∧
      s.patching = none ∧ s.bundled = none ∧ s.active = .empty ∧ s.pendingDelete = [] ∧
      ∀ sub ∈ s.subscriptions, sub.isInFlight = false
  createPending : s.phase = .createPending →
    s.resourceId = none ∧ s.acked = none ∧ s.creating.isSome = true ∧ s.patching = none ∧
      s.active = .empty ∧ s.pendingDelete = [] ∧
      (∀ sub ∈ s.subscriptions, sub.isInFlight = true → s.bundled = some sub.key) ∧
      ∀ key, s.bundled = some key → ∃ sub ∈ s.pendingNew, sub.key = key ∧ sub.isInFlight = true
  registered : s.phase = .registered →
    s.resourceId.isSome = true ∧ s.acked.isSome = true ∧ s.creating = none ∧ s.bundled = none
  pendingDelete : s.phase = .pendingDelete ↔ s.deleted = true
  stored : s.phase ≠ .gone

namespace Session

/-- A session that the MB-SMF does not know of is dirty. -/
def Unsent (s : Session) : Prop := s.remote = .absent → s.dirty = true

theorem unsent_new (key : SessionKey) : Unsent { key } := fun _ => rfl

theorem unsent_of_ne {s : Session} (h : s.remote ≠ .absent) : s.Unsent :=
  fun habsent => absurd habsent h

theorem Unsent.of_sameBody {s s' : Session} (h : s.Unsent) (hsame : SameBody s s') :
    s'.Unsent := by
  intro habsent
  have hremote := hsame.remote
  rw [habsent] at hremote
  by_contra hclean
  have hdirty := hsame.dirty (Bool.eq_false_iff.2 hclean)
  cases hr : s.remote with
  | absent =>
    rw [h hr] at hdirty
    cases hdirty
  | creating body bundled =>
    rw [hr] at hremote
    cases hremote
  | registered r =>
    rw [hr] at hremote
    cases hremote

theorem unsent_push {s s' : Session} (h : s.Unsent) {config : ClientConfig}
    (hs' : (s.push config).1 = some s') : s'.Unsent := by
  have hpushes := s.pushes config
  generalize s.push config = q at hpushes hs'
  cases hpushes with
  | removed => cases hs'
  | created =>
    rw [← Option.some.inj hs']
    exact unsent_of_ne Remote.noConfusion
  | recreated =>
    rw [← Option.some.inj hs']
    exact unsent_of_ne Remote.noConfusion
  | @reconciled r =>
    rw [← Option.some.inj hs']
    obtain ⟨p, -, heq⟩ := reconcile_eq config s r
    rw [heq]
    exact unsent_of_ne Remote.noConfusion
  | idle => rwa [← Option.some.inj hs']

/-- **A session that the MB-SMF does not know of stays dirty**, whatever happens to it. -/
theorem unsent_moved {s s' : Session} (h : s.Unsent) {m : Move} (hs' : (s.moved m).1 = some s') :
    s'.Unsent := by
  cases m with
  | change c =>
    rw [← Option.some.inj hs']
    cases hc : s.change c with
    | error e => exact h
    | ok t =>
      rcases change_cases hc with rfl | ⟨data, rfl⟩
      · exact h
      · exact fun _ => rfl
  | markDeleted =>
    rw [← Option.some.inj hs']
    exact fun _ => rfl
  | push config => exact unsent_push h hs'
  | release => simp [moved] at hs'
  | created answer =>
    simp only [moved] at hs'
    split at hs' <;> rw [← Option.some.inj hs']
    · exact unsent_of_ne Remote.noConfusion
    · exact h
  | refused problem =>
    simp only [moved] at hs'
    split at hs' <;> rw [← Option.some.inj hs']
    · exact fun _ => rfl
    · exact h
  | timedOut =>
    simp only [moved] at hs'
    split at hs'
    · simp at hs'
    · rwa [← Option.some.inj hs']
  | patched result =>
    rw [← Option.some.inj hs']
    unfold patched
    split
    · split
      · exact unsent_of_ne Remote.noConfusion
      · exact h
    · exact h
  | _ =>
    refine h.of_sameBody (sameBody_moved ?_ hs')
    exact trivial

-- Under no resource all subscriptions are new.
theorem subscriptions_flat {s : Session} (h : s.resource? = none) :
    s.flat.subscriptions = s.pendingNew := by
  cases hr : s.remote with
  | absent =>
    rw [flat_of_absent hr]
    simp [FlatSession.subscriptions, SortedMap.values, SortedMap.empty]
  | creating body bundled =>
    rw [flat_of_creating hr]; simp [FlatSession.subscriptions, SortedMap.values, SortedMap.empty]
  | registered r => simp [resource?, hr, Remote.resource?] at h

theorem shape_of_absent {s : Session} {log : List Intent} (hunsent : s.Unsent)
    (htrack : s.OnTrack log) (hr : s.remote = .absent) : s.flat.Shape := by
  have hsubs := subscriptions_flat (s := s) (by rw [resource?, hr]; rfl)
  rw [flat_of_absent hr] at hsubs ⊢
  refine ⟨fun _ => ⟨hunsent hr, rfl, rfl, rfl, rfl, rfl, rfl, rfl, ?_⟩, ?_, ?_, ?_, ?_⟩
  · intro sub hsub
    rw [hsubs] at hsub
    by_contra hin
    have hexpects := htrack sub.key ⟨sub, hsub, rfl, by simpa using hin⟩
    rw [Expects, hr] at hexpects
    exact hexpects
  all_goals cases s.deleted <;> simp

theorem shape_of_creating {s : Session} {log : List Intent} (hrides : s.Rides)
    (htrack : s.OnTrack log) {body : MbsSession} {bundled : Option SubscriptionKey}
    (hr : s.remote = .creating body bundled) : s.flat.Shape := by
  have hsubs := subscriptions_flat (s := s) (by rw [resource?, hr]; rfl)
  rw [flat_of_creating hr] at hsubs ⊢
  refine ⟨?_, fun _ => ⟨rfl, rfl, rfl, rfl, rfl, rfl, ?_, ?_⟩, ?_, ?_, ?_⟩
  · cases s.deleted <;> simp
  · intro sub hsub hin
    rw [hsubs] at hsub
    have hexpects := htrack sub.key ⟨sub, hsub, rfl, hin⟩
    rwa [Expects, hr] at hexpects
  · intro key hbundled
    have hbundled : bundled = some key := hbundled
    rw [hbundled] at hr
    exact hrides body key hr
  all_goals cases s.deleted <;> simp

theorem shape_of_registered {s : Session} {r : Resource} (hr : s.remote = .registered r) :
    s.flat.Shape := by
  rw [flat_of_registered hr]
  refine ⟨?_, ?_, fun _ => ⟨rfl, rfl, rfl, rfl⟩, ?_, ?_⟩
  all_goals cases s.deleted <;> simp

theorem shape_flat {s : Session} {log : List Intent} (hunsent : s.Unsent) (hrides : s.Rides)
    (htrack : s.OnTrack log) : s.flat.Shape := by
  cases hr : s.remote with
  | absent => exact shape_of_absent hunsent htrack hr
  | creating body bundled => exact shape_of_creating hrides htrack hr
  | registered r => exact shape_of_registered hr

end Session

end MbsClient
