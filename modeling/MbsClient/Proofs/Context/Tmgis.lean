import MbsClient.Proofs.Context.Index
import MbsClient.Proofs.Session.Identity

/-!
# TMGIs — what the sessions know and where the index leads

The index of TMGIs is kept apart from the sessions. It is written when a creation is answered and
when a session goes, and every action does one of three things to it (`Context.Course`).
-/

namespace MbsClient

theorem SortedMap.get?_filter_iff {κ ν : Type} [KeyOrder κ] {m : SortedMap κ ν}
    {keep : κ → ν → Bool} {k : κ} {v : ν} :
    (m.filter keep).get? k = some v ↔ m.get? k = some v ∧ keep k v = true := by
  rw [← mem_entries, ← mem_entries]
  exact List.mem_filter

/-! ## 1. The TMGIs that sessions know -/

namespace View

/-- The TMGI that the MB-SMF has acknowledged for a session. -/
def tmgi? (v : View) (key : SessionKey) : Option Tmgi :=
  (v.sessions.get? key).bind fun s => s.identity.tmgi

theorem tmgi?_of_get? {v : View} {key : SessionKey} {s : Session}
    (h : v.sessions.get? key = some s) : v.tmgi? key = s.identity.tmgi := by
  rw [tmgi?, h, Option.bind_some]

theorem tmgi?_put_self (v : View) (key : SessionKey) (s? : Option Session)
    (intents : List Intent) :
    (v.put key s? intents).tmgi? key = s?.bind fun s => s.identity.tmgi := by
  cases s? with
  | none => simp [tmgi?, put]
  | some s => simp [tmgi?, put]

theorem tmgi?_put_of_ne (v : View) {key k : SessionKey} (hk : k ≠ key) (s? : Option Session)
    (intents : List Intent) : (v.put key s? intents).tmgi? k = v.tmgi? k := by
  cases s? with
  | none => rw [tmgi?, put, SortedMap.get?_erase_of_ne _ hk, tmgi?]
  | some s => rw [tmgi?, put, SortedMap.get?_insert_of_ne _ hk, tmgi?]

theorem tmgi?_moved {v : View} {m : Session.Move} (hm : m.Plain) (key k : SessionKey) :
    (v.apply (.moved key m)).tmgi? k = v.tmgi? k := by
  cases h : v.sessions.get? key with
  | none => rw [apply_moved_none h]
  | some s =>
    obtain ⟨s', hs', hidentity⟩ := s.identity_moved hm
    rw [apply_moved h, hs']
    by_cases hk : k = key
    · rw [hk, tmgi?_put_self, Option.bind_some, tmgi?_of_get? h, hidentity]
    · exact tmgi?_put_of_ne v hk _ _

-- A session that opens knows no TMGI.
theorem tmgi?_opened {v : View} (hk : v.Keyed) (key : SessionKey) :
    (v.apply .opened).tmgi? key = v.tmgi? key := by
  by_cases hkey : key = v.nextSession
  · have hnone : v.sessions.get? v.nextSession = none := by
      cases h : v.sessions.get? v.nextSession with
      | none => rfl
      | some s => exact absurd (hk.below h) (Nat.lt_irrefl _)
    rw [hkey, tmgi?, tmgi?, hnone]
    simp [apply]
  · rw [tmgi?, apply, SortedMap.get?_insert_of_ne _ hkey, tmgi?]

end View

/-- No session goes, and none gets another identity. -/
def Transition.Plain : Transition → Prop
  | .moved _ m => m.Plain
  | _ => True

theorem View.tmgi?_foldl {v : View} (hk : v.Keyed) {ts : List Transition}
    (hts : ∀ t ∈ ts, t.Plain) (key : SessionKey) : (ts.foldl apply v).tmgi? key = v.tmgi? key := by
  induction ts generalizing v with
  | nil => rfl
  | cons t ts ih =>
    have hfirst : (v.apply t).tmgi? key = v.tmgi? key := by
      cases t with
      | opened => exact tmgi?_opened hk key
      | moved k m => exact tmgi?_moved (hts _ List.mem_cons_self) k key
      | orphaned intents => rfl
    rw [List.foldl_cons, ih (keyed_apply hk t) fun u hu => hts u (List.mem_cons_of_mem _ hu),
      hfirst]

/-- Neither destroys sessions nor answers a creation. -/
def Action.Plain : Action → Prop
  | .push _ => False
  | .pushAll => False
  | .close => False
  | .event (.createResult ..) => False
  | .event (.timeout (.createResource _)) => False
  | _ => True

theorem Action.Makes.plain {config : ClientConfig} {a : Action} {t : Transition}
    (h : a.Makes config t) (ha : a.Plain) : t.Plain := by
  cases h with
  | pushed => exact ha.elim
  | allPushed => exact ha.elim
  | closed => exact ha.elim
  | created => exact ha.elim
  | timedOut => exact ha.elim
  | _ => trivial

namespace Context

/-! ## 2. The index of TMGIs -/

variable {c c' c'' : Context}

/-- The TMGI that the MB-SMF has acknowledged for a session. -/
def tmgi? (c : Context) (key : SessionKey) : Option Tmgi :=
  (c.session? key).bind fun s => s.identity.tmgi

/-- Every session knows and is found by the TMGI that it has known and been found by, or else by
none. -/
def Settled (c c' : Context) : Prop :=
  ∀ key, (c'.tmgi? key = c.tmgi? key ∧
      ∀ t, c'.tmgiOwners.get? t = some key ↔ c.tmgiOwners.get? t = some key) ∨
    (c'.tmgi? key = none ∧ ∀ t, c'.tmgiOwners.get? t ≠ some key)

theorem Settled.refl (c : Context) : c.Settled c := fun _ => .inl ⟨rfl, fun _ => Iff.rfl⟩

theorem Settled.trans (h : c.Settled c') (h' : c'.Settled c'') : c.Settled c'' := by
  intro key
  rcases h' key with ⟨hknown, hfound⟩ | hgone
  · rcases h key with ⟨hknown', hfound'⟩ | ⟨hnone, hnot⟩
    · exact .inl ⟨hknown.trans hknown', fun t => (hfound t).trans (hfound' t)⟩
    · exact .inr ⟨hknown.trans hnone, fun t ht => hnot t ((hfound t).1 ht)⟩
  · exact .inr hgone

theorem settled_of_eq (hknown : ∀ key, c'.tmgi? key = c.tmgi? key)
    (hindex : c'.tmgiOwners = c.tmgiOwners) : c.Settled c' :=
  fun key => .inl ⟨hknown key, fun t => by rw [hindex]⟩

theorem settled_destroy (c : Context) (key : SessionKey) : c.Settled (c.destroy key) := by
  intro k
  by_cases hk : k = key
  · refine .inr ⟨?_, fun t ht => ?_⟩
    · rw [hk]
      simp [tmgi?, session?, destroy]
    · have hkeep := (SortedMap.get?_filter_iff.1 ht).2
      simp [hk] at hkeep
  · refine .inl ⟨?_, fun t => ?_⟩
    · rw [tmgi?, session?, destroy, SortedMap.get?_erase_of_ne _ hk]
      rfl
    · rw [destroy, SortedMap.get?_filter_iff]
      simp [hk]

theorem settled_push (hk : (c.view []).Keyed) (key : SessionKey) :
    c.Settled ((c.push key).toOption.getD c) := by
  cases hs : c.sessions.get? key with
  | none =>
    simp only [push, session_of_get?_none hs]
    exact Settled.refl c
  | some s =>
    simp only [push, session_of_get? hs, bind, Except.bind]
    split
    · rename_i s' intents hpush
      have hpushed : (s.push c.config).1 = some s' := by rw [hpush]
      have hkey : s'.key = key := (Session.key_of_push hpushed).trans (hk.own hs)
      refine settled_of_eq (fun k => ?_) rfl
      show ((c.view []).put s'.key (some s') []).tmgi? k = _
      rw [hkey]
      by_cases hkk : k = key
      · rw [hkk, View.tmgi?_put_self, Option.bind_some, Session.identity_of_push hpushed]
        exact (View.tmgi?_of_get? (v := c.view []) hs).symm
      · exact View.tmgi?_put_of_ne _ hkk _ _
    · rename_i intents hpush
      exact settled_destroy (c.emit intents) key

theorem settled_pushAll (hk : (c.view []).Keyed) : c.Settled c.pushAll := by
  unfold pushAll
  generalize c.sessions.keys = keys
  induction keys generalizing c with
  | nil => exact Settled.refl c
  | cons key keys ih =>
    refine (settled_push hk key).trans (ih ?_)
    rw [view_push hk]
    exact View.keyed_apply hk _

theorem settled_close (c : Context) : c.Settled c.close := by
  intro key
  refine .inr ⟨?_, fun t ht => ?_⟩
  · simp [tmgi?, session?, close]
  · simp [close] at ht

theorem settled_creationTimedOut (c : Context) (key : SessionKey) :
    c.Settled (c.creationTimedOut key).1 := by
  unfold creationTimedOut
  split
  · exact settled_destroy c key
  · exact Settled.refl c

theorem tmgiOwners_handle {e : TransportEvent} (ha : (Action.event e).Plain) :
    (c.handle e).1.tmgiOwners = c.tmgiOwners := by
  have hpatched : ∀ key result, (c.sessionPatched key result).1.tmgiOwners = c.tmgiOwners := by
    intro key result
    unfold sessionPatched
    split <;> rfl
  have hcreated : ∀ key result, (c.subscriptionCreated key result).1.tmgiOwners = c.tmgiOwners := by
    intro key result
    unfold subscriptionCreated
    split
    · rfl
    · split <;> rfl
  have hupdated : ∀ key result, (c.subscriptionUpdated key result).1.tmgiOwners = c.tmgiOwners := by
    intro key result
    unfold subscriptionUpdated
    split <;> rfl
  cases e with
  | createResult key result => exact ha.elim
  | patchResult key result => cases result <;> exact hpatched key _
  | subscriptionCreated key result => exact hcreated key _
  | subscriptionUpdated key result => exact hupdated key _
  | timeout target =>
    cases target with
    | createResource key => exact ha.elim
    | patchResource key => exact hpatched key _
    | createSubscription key => exact hcreated key _
    | updateSubscription key => exact hupdated key _

theorem tmgiOwners_act {a : Action} (ha : a.Plain) : (c.act a).tmgiOwners = c.tmgiOwners := by
  cases a with
  | newSession =>
    simp only [act, newSession]
    split <;> rfl
  | watchSession key =>
    simp only [act, watchSession]
    cases c.session key <;> rfl
  | changeSession key change =>
    simp only [act, changeSession]
    cases c.session key with
    | error e => rfl
    | ok s =>
      simp only [bind, Except.bind]
      cases s.change change <;> rfl
  | deleteSession key =>
    simp only [act, deleteSession]
    cases c.session key <;> rfl
  | addSubscription session data =>
    simp only [act, addSubscription]
    cases c.session session <;> rfl
  | updateSubscription key changes =>
    simp only [act, updateSubscription, bind, Except.bind]
    split
    · rfl
    · split
      · rfl
      · split <;> rfl
  | removeSubscription key =>
    simp only [act, removeSubscription, bind, Except.bind]
    split
    · rfl
    · split
      · rfl
      · rename_i s hs
        cases s.removeSubscription key with
        | error e => rfl
        | ok t =>
          simp only [pure, Except.pure, Except.toOption, Option.getD_some]
          split <;> rfl
  | transferSubscription key target =>
    rcases transferSubscription_cases c key target with
      ⟨e, herror, -⟩ | ⟨_, _, _, _, _, -, -, -, -, hok⟩
    · rw [act, herror]
      rfl
    · rw [act, hok]
      rfl
  | takeIntents => rfl
  | event e => exact tmgiOwners_handle ha
  | push key => exact ha.elim
  | pushAll => exact ha.elim
  | close => exact ha.elim

theorem settled_of_plain (hk : (c.view []).Keyed) {a : Action} (ha : a.Plain) :
    c.Settled (c.act a) := by
  refine settled_of_eq (fun key => ?_) (tmgiOwners_act ha)
  have hview : (c.act a).tmgi? key = (World.act ⟨c, []⟩ a).view.tmgi? key := by
    cases a <;> rfl
  rw [hview, World.view_act (w := ⟨c, []⟩) hk]
  exact View.tmgi?_foldl hk (fun t ht => (makes_of_mem_script ht).plain ha) key

/-! ### Answered creations -/

/-- A session knows a TMGI from now on and is found by it. -/
structure Named (c c' : Context) (key : SessionKey) (tmgi : Tmgi) : Prop where
  self : c'.tmgi? key = some tmgi
  others : ∀ k, k ≠ key → c'.tmgi? k = c.tmgi? k
  found : c'.tmgiOwners.get? tmgi = some key
  kept : ∀ t, t ≠ tmgi → ∀ k, c'.tmgiOwners.get? t = some k ↔ k ≠ key ∧ c.tmgiOwners.get? t = some k

/-- A session knows no TMGI any more, but the index is as it was. -/
structure Unnamed (c c' : Context) (key : SessionKey) : Prop where
  self : ∃ s, c'.session? key = some s ∧ s.identity.tmgi = none
  others : ∀ k, k ≠ key → c'.tmgi? k = c.tmgi? k
  index : c'.tmgiOwners = c.tmgiOwners

/-- The context when the creation of a session has been answered. -/
def settle (c : Context) (s : Session) : Context := ((c.store s).indexTmgi s).reindex s

theorem session?_settle (c : Context) (s : Session) : (c.settle s).session? s.key = some s := by
  have hsessions : (c.settle s).sessions = (c.store s).sessions := sessions_indexTmgi (c.store s) s
  rw [session?, hsessions]
  exact SortedMap.get?_insert_self _ _ _

theorem tmgi?_settle_of_ne (c : Context) (s : Session) {key : SessionKey} (hk : key ≠ s.key) :
    (c.settle s).tmgi? key = c.tmgi? key := by
  have hsessions : (c.settle s).sessions = (c.store s).sessions := sessions_indexTmgi (c.store s) s
  rw [tmgi?, session?, hsessions, store, SortedMap.get?_insert_of_ne _ hk, tmgi?, session?]

theorem named_settle (c : Context) {s : Session} {tmgi : Tmgi} (h : s.identity.tmgi = some tmgi) :
    c.Named (c.settle s) s.key tmgi := by
  have hindex : (c.settle s).tmgiOwners =
      (c.tmgiOwners.filter fun _ owner => owner != s.key).insert tmgi s.key := by
    simp only [settle, reindex, indexTmgi, h]
    rfl
  refine ⟨?_, fun k hk => tmgi?_settle_of_ne c s hk, ?_, fun t ht k => ?_⟩
  · rw [tmgi?, session?_settle, Option.bind_some, h]
  · rw [hindex]
    exact SortedMap.get?_insert_self _ _ _
  · rw [hindex, SortedMap.get?_insert_of_ne _ ht, SortedMap.get?_filter_iff, bne_iff_ne, and_comm]

theorem unnamed_settle (c : Context) {s : Session} (h : s.identity.tmgi = none) :
    c.Unnamed (c.settle s) s.key := by
  refine ⟨⟨s, session?_settle c s, h⟩, fun k hk => tmgi?_settle_of_ne c s hk, ?_⟩
  simp only [settle, reindex, indexTmgi, h]
  rfl

/-- What an action can mean for the look-up by TMGI. -/
inductive Course (c : Context) : Action → Prop
  | settled {a : Action} (h : c.Settled (c.act a)) : Course c a
  | named {a : Action} {key : SessionKey} {tmgi : Tmgi} (h : c.Named (c.act a) key tmgi) :
      Course c a
  | unnamed {s : Session} {body : MbsSession} {bundled : Option SubscriptionKey}
      {answer : SessionCreated} (hs : c.session? s.key = some s)
      (hw : s.waitingFor? = some (body, bundled))
      (hnone : body.tmgi = none ∧ answer.tmgi = none)
      (h : c.Unnamed (c.act (.event (.createResult s.key (.ok answer)))) s.key) :
      Course c (.event (.createResult s.key (.ok answer)))

theorem tmgi_withAllocated (body : MbsSession) (tmgi : Option Tmgi) :
    (body.withAllocated tmgi).tmgi = none ↔ body.tmgi = none ∧ tmgi = none := by
  cases tmgi with
  | none => simp [MbsSession.withAllocated]
  | some t => simp [MbsSession.withAllocated, MbsSession.tmgi]

section

variable {s : Session} {body : MbsSession} {bundled : Option SubscriptionKey}

theorem act_created (hs : c.session? s.key = some s) (hw : s.waitingFor? = some (body, bundled))
    (answer : SessionCreated) : c.act (.event (.createResult s.key (.ok answer))) =
      c.settle (s.created body bundled answer).1 := by
  show (c.sessionCreated s.key (.ok answer)).1 = _
  simp only [sessionCreated, hs, hw]
  rfl

theorem act_refused (hs : c.session? s.key = some s) (hw : s.waitingFor? = some (body, bundled))
    (problem : ProblemDetails) : c.act (.event (.createResult s.key (.error problem))) =
      c.settle (s.refused bundled problem).1 := by
  show (c.sessionCreated s.key (.error problem)).1 = _
  simp only [sessionCreated, hs, hw]
  rfl

theorem course_created (hs : c.session? s.key = some s)
    (hw : s.waitingFor? = some (body, bundled)) (answer : SessionCreated) :
    c.Course (.event (.createResult s.key (.ok answer))) := by
  have hact := act_created hs hw answer
  cases ht : (body.withAllocated answer.tmgi).tmgi with
  | some tmgi =>
    have hnamed := named_settle c (s := (s.created body bundled answer).1) ht
    rw [← hact] at hnamed
    exact .named hnamed
  | none =>
    have hunnamed := unnamed_settle c (s := (s.created body bundled answer).1) ht
    rw [← hact] at hunnamed
    exact .unnamed hs hw ((tmgi_withAllocated body answer.tmgi).1 ht) hunnamed

-- A session that is refused is what it was to the look-up, if it is known at all.
theorem course_refused (hs : c.session? s.key = some s)
    (hw : s.waitingFor? = some (body, bundled)) (problem : ProblemDetails) :
    c.Course (.event (.createResult s.key (.error problem))) := by
  have hact := act_refused hs hw problem
  cases ht : s.identity.tmgi with
  | some tmgi =>
    have hnamed := named_settle c (s := (s.refused bundled problem).1) ht
    rw [← hact] at hnamed
    exact .named hnamed
  | none =>
    have hunnamed := unnamed_settle c (s := (s.refused bundled problem).1) ht
    rw [← hact] at hunnamed
    refine .settled (settled_of_eq (fun k => ?_) hunnamed.index)
    by_cases hkey : k = s.key
    · obtain ⟨t, hget, hnone⟩ := hunnamed.self
      have hget : (c.act (.event (.createResult s.key (.error problem)))).session? s.key =
          some t := hget
      rw [hkey, tmgi?, hget, tmgi?, hs, Option.bind_some, Option.bind_some, hnone, ht]
    · exact hunnamed.others k hkey

end

-- Nobody waits for the answer.
theorem act_unawaited {key : SessionKey} (h : (c.session? key).bind Session.waitingFor? = none)
    (result : Except ProblemDetails SessionCreated) :
    c.act (.event (.createResult key result)) = c.emit (removeOrphan key result) := by
  show (c.sessionCreated key result).1 = _
  unfold sessionCreated
  cases hs : c.session? key with
  | none => rfl
  | some s =>
    rw [hs, Option.bind_some] at h
    simp only [h]

theorem course_createResult (hk : (c.view []).Keyed) (key : SessionKey)
    (result : Except ProblemDetails SessionCreated) :
    c.Course (.event (.createResult key result)) := by
  cases h : (c.session? key).bind Session.waitingFor? with
  | none =>
    refine .settled (settled_of_eq (fun _ => ?_) ?_) <;> rw [act_unawaited h result] <;> rfl
  | some w =>
    obtain ⟨body, bundled⟩ := w
    obtain ⟨s, hs, hw⟩ := Option.bind_eq_some_iff.1 h
    have hown : s.key = key := hk.own hs
    subst hown
    cases result with
    | ok answer => exact course_created hs hw answer
    | error problem => exact course_refused hs hw problem

theorem course (hk : (c.view []).Keyed) (a : Action) : c.Course a := by
  cases a with
  | push key => exact .settled (settled_push hk key)
  | pushAll => exact .settled (settled_pushAll hk)
  | close => exact .settled (settled_close c)
  | event e =>
    cases e with
    | createResult key result => exact course_createResult hk key result
    | timeout target =>
      cases target with
      | createResource key => exact .settled (settled_creationTimedOut c key)
      | _ => exact .settled (settled_of_plain hk trivial)
    | _ => exact .settled (settled_of_plain hk trivial)
  | _ => exact .settled (settled_of_plain hk trivial)

end Context

end MbsClient
