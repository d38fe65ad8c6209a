import MbsClient.Proofs.Context.Stale
import MbsClient.Proofs.Context.Tmgis

/-!
# Effects — what a step of one session does to the context

A step of one session puts the session in its place, takes away entries of the indices that lead to
it or names it by a TMGI, and sends. Effects on different sessions do not meet, unless both name
their session by the same TMGI (`affect_affect`). Which effect a step has hangs on its own session
alone (`hasEffect`).
-/

namespace MbsClient

namespace SortedMap

variable {κ ν : Type} [KeyOrder κ]

theorem get?_filter_eq (m : SortedMap κ ν) (keep : κ → ν → Bool) (k : κ) :
    (m.filter keep).get? k = (m.get? k).filter (keep k) := by
  apply Option.ext
  intro v
  rw [get?_filter_iff, Option.filter_eq_some_iff]

theorem filter_comm (m : SortedMap κ ν) (p q : κ → ν → Bool) :
    (m.filter p).filter q = (m.filter q).filter p := by
  apply ext_entries
  simp only [filter, List.filter_filter, Bool.and_comm]

/-- The value is under the key from now on, or nothing is. -/
def set (m : SortedMap κ ν) (k : κ) : Option ν → SortedMap κ ν
  | some v => m.insert k v
  | none => m.erase k

theorem get?_set (m : SortedMap κ ν) (k : κ) (v? : Option ν) (k' : κ) :
    (m.set k v?).get? k' = if k' = k then v? else m.get? k' := by
  split
  · rename_i hk
    rw [hk]
    cases v? with
    | none => exact get?_erase_self m k
    | some v => exact get?_insert_self m k v
  · rename_i hk
    cases v? with
    | none => exact get?_erase_of_ne m hk
    | some v => exact get?_insert_of_ne m hk v

theorem set_get? (m : SortedMap κ ν) (k : κ) : m.set k (m.get? k) = m := by
  apply ext_get?
  intro k'
  rw [get?_set]
  split
  · rename_i hk
    rw [hk]
  · rfl

theorem set_comm (m : SortedMap κ ν) {k k' : κ} (hk : k ≠ k') (v? w? : Option ν) :
    (m.set k v?).set k' w? = (m.set k' w?).set k v? := by
  apply ext_get?
  intro j
  simp only [get?_set]
  split
  · rename_i hj
    rw [if_neg (hj ▸ hk.symm)]
  · rfl

end SortedMap

/-! ## 1. Effects -/

/-- What becomes of the TMGIs that a session is found by. -/
inductive Naming where
  | kept
  | dropped
  | named (tmgi : Tmgi)

namespace Naming

/-- The TMGI that the session is newly found by. -/
def tmgi? : Naming → Option Tmgi
  | .named tmgi => some tmgi
  | _ => none

/-- A session that is known by a TMGI is found by it; any other is found as before. -/
def ofTmgi : Option Tmgi → Naming
  | some tmgi => .named tmgi
  | none => .kept

theorem tmgi?_ofTmgi (tmgi? : Option Tmgi) : (ofTmgi tmgi?).tmgi? = tmgi? := by
  cases tmgi? <;> rfl

/-- Whether an entry of the index that leads to `owner` stays. -/
def spares (key owner : SessionKey) : Naming → Bool
  | .kept => true
  | _ => owner != key

/-- The index of TMGIs afterwards. -/
def enter (key : SessionKey) (names : SortedMap Tmgi SessionKey) (n : Naming) :
    SortedMap Tmgi SessionKey :=
  match n.tmgi? with
  | some tmgi => (names.filter fun _ owner => n.spares key owner).insert tmgi key
  | none => names.filter fun _ owner => n.spares key owner

/-- Both sessions are to be found by one TMGI. -/
def Clashes (n n' : Naming) : Prop := ∃ tmgi, n.tmgi? = some tmgi ∧ n'.tmgi? = some tmgi

theorem spares_of_ne {key owner : SessionKey} (hne : owner ≠ key) (n : Naming) :
    n.spares key owner = true := by
  cases n with
  | kept => rfl
  | _ => exact bne_iff_ne.2 hne

theorem get?_enter (key : SessionKey) (names : SortedMap Tmgi SessionKey) (n : Naming)
    (tmgi : Tmgi) : (n.enter key names).get? tmgi =
      if n.tmgi? = some tmgi then some key
      else (names.get? tmgi).filter fun owner => n.spares key owner := by
  unfold enter
  cases n.tmgi? with
  | none => exact SortedMap.get?_filter_eq _ _ _
  | some t =>
    by_cases ht : tmgi = t
    · rw [ht, if_pos rfl]
      exact SortedMap.get?_insert_self _ _ _
    · rw [if_neg fun heq => ht (Option.some.inj heq).symm]
      exact (SortedMap.get?_insert_of_ne _ ht _).trans (SortedMap.get?_filter_eq _ _ _)

theorem enter_comm {a b : SessionKey} (hne : a ≠ b) {n n' : Naming} (h : ¬ n.Clashes n')
    (names : SortedMap Tmgi SessionKey) :
    n'.enter b (n.enter a names) = n.enter a (n'.enter b names) := by
  apply SortedMap.ext_get?
  intro t
  simp only [get?_enter]
  by_cases hn : n.tmgi? = some t
  · have hn' : n'.tmgi? ≠ some t := fun heq => h ⟨t, hn, heq⟩
    rw [if_neg hn', if_pos hn, if_pos hn, Option.filter_some, if_pos (spares_of_ne hne n')]
  · by_cases hn' : n'.tmgi? = some t
    · rw [if_pos hn', if_neg hn, if_pos hn', Option.filter_some, if_pos (spares_of_ne hne.symm n)]
    · rw [if_neg hn', if_neg hn, if_neg hn, if_neg hn', Option.filter_filter, Option.filter_filter]
      congr 1
      funext owner
      exact Bool.and_comm _ _

-- The later of two sessions with one name is found by it.
theorem enter_ne {a b : SessionKey} (hne : a ≠ b) {n n' : Naming} (h : n.Clashes n')
    (names : SortedMap Tmgi SessionKey) :
    n'.enter b (n.enter a names) ≠ n.enter a (n'.enter b names) := by
  obtain ⟨t, hn, hn'⟩ := h
  intro heq
  have hfound := congrArg (·.get? t) heq
  simp only [get?_enter, if_pos hn, if_pos hn'] at hfound
  exact hne (Option.some.inj hfound).symm

end Naming

/-- What a step of one session does to a context. -/
structure Effect where
  /-- The session afterwards, unless it is gone. -/
  session? : Option Session
  intents : List Intent := []
  naming : Naming := .kept
  /-- The subscriptions that the index goes on to find with the session. -/
  finds : SubscriptionKey → Bool := fun _ => true

namespace Effect

/-- The session goes, with whatever leads to it. -/
def gone (intents : List Intent) : Effect where
  session? := none
  intents := intents
  naming := .dropped
  finds _ := false

/-- The session is put in its place, and the index forgets what it does not hold. -/
def reindexed (s : Session) (naming : Naming) (intents : List Intent) : Effect where
  session? := some s
  intents := intents
  naming := naming
  finds := s.subscriptionKeys.contains

end Effect

namespace Context

variable {c c' : Context} {a b key : SessionKey} {s : Session} {intents : List Intent}

/-- The context after an effect on the session with the key. -/
def affect (c : Context) (key : SessionKey) (e : Effect) : Context :=
  { c with
    sessions := c.sessions.set key e.session?
    tmgiOwners := e.naming.enter key c.tmgiOwners
    owners := c.owners.filter fun sub owner => owner != key || e.finds sub
    outbox := c.outbox ++ e.intents }

/-! ### Operations as effects -/

theorem enter_kept (key : SessionKey) (names : SortedMap Tmgi SessionKey) :
    Naming.kept.enter key names = names :=
  SortedMap.ext_entries (List.filter_eq_self.2 fun _ _ => rfl)

-- An effect that leaves both indices alone.
theorem affect_plain (c : Context) (key : SessionKey) (s? : Option Session)
    (intents : List Intent) :
    c.affect key { session? := s?, intents } =
      { c.emit intents with sessions := c.sessions.set key s? } := by
  have howners : (c.owners.filter fun _ owner => owner != key || true) = c.owners :=
    SortedMap.ext_entries (List.filter_eq_self.2 fun _ _ => Bool.or_true _)
  simp only [affect, enter_kept, howners, emit]

theorem affect_same (c : Context) (key : SessionKey) (intents : List Intent) :
    c.affect key { session? := c.session? key, intents } = c.emit intents := by
  rw [affect_plain, session?, SortedMap.set_get?]
  rfl

theorem affect_store (c : Context) (s : Session) :
    c.affect s.key { session? := some s } = c.store s := by
  rw [affect_plain, emit_nil]
  rfl

theorem affect_reindex (c : Context) (s : Session) (intents : List Intent) :
    c.affect s.key (.reindexed s .kept intents) = ((c.store s).emit intents).reindex s := by
  simp only [affect, Effect.reindexed, enter_kept]
  rfl

theorem affect_settle (c : Context) (s : Session) :
    c.affect s.key (.reindexed s (.ofTmgi s.identity.tmgi) []) = c.settle s := by
  cases h : s.identity.tmgi with
  | none =>
    simp only [affect, Effect.reindexed, Naming.ofTmgi, enter_kept, settle, indexTmgi, h,
      List.append_nil]
    rfl
  | some tmgi =>
    simp only [affect, Effect.reindexed, Naming.ofTmgi, settle, indexTmgi, h, List.append_nil]
    rfl

theorem affect_destroy (c : Context) (key : SessionKey) (intents : List Intent) :
    c.affect key (.gone intents) = (c.emit intents).destroy key := by
  simp only [affect, Effect.gone, Bool.or_false]
  rfl

/-! ### Effects on different sessions -/

theorem session?_affect_of_ne (c : Context) (hne : a ≠ b) (e : Effect) :
    (c.affect b e).session? a = c.session? a :=
  (SortedMap.get?_set _ _ _ _).trans (if_neg hne)

-- Only entries of the own session go.
theorem owner_affect (hne : a ≠ b) (e : Effect) {sub : SubscriptionKey}
    (h : c.owners.get? sub = some a) : (c.affect b e).owners.get? sub = some a :=
  SortedMap.get?_filter h (by simp [hne])

-- The order shows in the outbox and, where names clash, in the index of TMGIs.
theorem affect_affect (c : Context) (hne : a ≠ b) (e f : Effect) :
    (c.affect b f).affect a e =
      { (c.affect a e).affect b f with
        outbox := c.outbox ++ f.intents ++ e.intents
        tmgiOwners := ((c.affect b f).affect a e).tmgiOwners } := by
  have hsessions := c.sessions.set_comm hne.symm f.session? e.session?
  have howners := c.owners.filter_comm (fun sub owner => owner != b || f.finds sub)
    fun sub owner => owner != a || e.finds sub
  simp only [affect, hsessions, howners]

/-! ## 2. Steps of one session -/

/-- The session is asked for something, or holds the subscription that is asked for. -/
def IsAsked (c : Context) (key : SessionKey) : TimeoutTarget → Prop
  | .createResource k => k = key
  | .patchResource k => k = key
  | .createSubscription sub => (c.view []).Holds key sub
  | .updateSubscription sub => (c.view []).Holds key sub

end Context

/-- The action is a step of the session with the key. -/
inductive Action.Concerns (c : Context) (key : SessionKey) : Action → Prop
  | watched : Concerns c key (.watchSession key)
  | changed {change : SessionChange} : Concerns c key (.changeSession key change)
  | modified {sub : SubscriptionKey} {changes : List SubscriptionChange}
      (hheld : (c.view []).Holds key sub) : Concerns c key (.updateSubscription sub changes)
  | deleted : Concerns c key (.deleteSession key)
  | pushed : Concerns c key (.push key)
  | answered {e : TransportEvent} (hasked : c.IsAsked key e.request) : Concerns c key (.event e)

namespace Context

variable {c c' : Context} {a b key : SessionKey} {s : Session} {action : Action}

/-- The session sees no difference between the contexts. -/
structure Alike (c : Context) (key : SessionKey) (c' : Context) : Prop where
  config : c'.config = c.config
  session? : c'.session? key = c.session? key
  owned : ∀ sub, c.owners.get? sub = some key → c'.owners.get? sub = some key

theorem Alike.refl (c : Context) (key : SessionKey) : c.Alike key c := ⟨rfl, rfl, fun _ h => h⟩

theorem alike_affect (c : Context) (hne : a ≠ b) (e : Effect) : c.Alike a (c.affect b e) :=
  ⟨rfl, session?_affect_of_ne c hne e, fun _ => owner_affect hne e⟩

/-- The action has the effect on the session in all contexts that are alike to it. -/
def Causes (c : Context) (action : Action) (key : SessionKey) (e : Effect) : Prop :=
  ∀ c', c.Alike key c' → c'.act action = c'.affect key e

/-- A session that waits for its creation has been answered, and is known by the TMGI now. -/
def Names (c : Context) (key : SessionKey) (action : Action) (tmgi : Tmgi) : Prop :=
  (∃ result, action = .event (.createResult key result)) ∧ c.Awaits (.createResource key) ∧
    (c.act action).tmgi? key = some tmgi

/-- What the action does to the session, which it names only where it answers its creation. -/
def HasEffect (c : Context) (key : SessionKey) (action : Action) : Prop :=
  ∃ e : Effect, (∀ tmgi, e.naming.tmgi? = some tmgi ↔ c.Names key action tmgi) ∧
    c.Causes action key e

-- A step that answers no creation.
theorem hasEffect_of_plain (hplain : ∀ result, action ≠ .event (.createResult key result))
    {e : Effect} (hname : e.naming.tmgi? = none) (h : c.Causes action key e) :
    c.HasEffect key action := by
  refine ⟨e, fun tmgi => ⟨fun hsome => ?_, fun hnames => ?_⟩, h⟩
  · rw [hname] at hsome
    cases hsome
  · obtain ⟨⟨result, rfl⟩, -⟩ := hnames
    exact absurd rfl (hplain result)

theorem store_same (h : c.session? s.key = some s) : c.store s = c := by
  rw [← affect_store, ← h, affect_same, emit_nil]

-- A step that at most puts the session back in another state.
theorem hasEffect_of_store (hk : (c.view []).Keyed)
    (hplain : ∀ result, action ≠ .event (.createResult key result)) {f : Session → Session}
    (hkey : ∀ s, (f s).key = s.key)
    (hact : ∀ c', c.Alike key c' →
      c'.act action = ((c'.session? key).map fun s => c'.store (f s)).getD c') :
    c.HasEffect key action := by
  refine hasEffect_of_plain (e := { session? := (c.session? key).map f }) hplain rfl ?_
  intro c' hc'
  rw [hact c' hc', ← hc'.session?]
  cases hs : c'.session? key with
  | none => rw [Option.map_none, Option.map_none, ← hs, affect_same, emit_nil]; rfl
  | some s =>
    have hown : (f s).key = key := (hkey s).trans (hk.own (hc'.session?.symm.trans hs))
    rw [Option.map_some, Option.map_some, Option.getD_some, ← affect_store, hown]

theorem hasEffect_watchSession (hk : (c.view []).Keyed) :
    c.HasEffect key (.watchSession key) := by
  refine hasEffect_of_store hk (by simp)
    (f := fun s => { s with watchesResults := true }) (fun _ => rfl) fun c' _ => ?_
  simp only [act, watchSession]
  cases hs : c'.session? key with
  | none => rw [session_of_get?_none hs]; rfl
  | some s => rw [session_of_get? hs]; rfl

theorem hasEffect_changeSession (hk : (c.view []).Keyed) (change : SessionChange) :
    c.HasEffect key (.changeSession key change) := by
  refine hasEffect_of_store hk (by simp)
    (f := fun s => (s.change change).toOption.getD s) (fun s => ?_) fun c' hc' => ?_
  · cases hchange : s.change change with
    | error e => rfl
    | ok t => exact Session.key_of_change hchange
  · simp only [act, changeSession]
    cases hs : c'.session? key with
    | none => rw [session_of_get?_none hs]; rfl
    | some s =>
      rw [session_of_get? hs]
      cases hchange : s.change change with
      | error e =>
        have hown : s.key = key := hk.own (hc'.session?.symm.trans hs)
        have hsame : c'.store s = c' := store_same (hown.symm ▸ hs)
        simp only [bind, Except.bind, hchange, Option.map_some]
        exact hsame.symm
      | ok t =>
        simp only [bind, Except.bind, hchange, Option.map_some]
        rfl

theorem hasEffect_deleteSession (hk : (c.view []).Keyed) :
    c.HasEffect key (.deleteSession key) := by
  refine hasEffect_of_store hk (by simp) (f := Session.markDeleted)
    (fun _ => rfl) fun c' _ => ?_
  simp only [act, deleteSession]
  cases hs : c'.session? key with
  | none => rw [session_of_get?_none hs]; rfl
  | some s => rw [session_of_get? hs]; rfl

theorem hasEffect_updateSubscription (hk : (c.view []).Keyed) {sub : SubscriptionKey}
    (howner : c.owners.get? sub = some key) (changes : List SubscriptionChange) :
    c.HasEffect key (.updateSubscription sub changes) := by
  refine hasEffect_of_store hk (by simp)
    (f := fun s => (s.moved (.modify sub changes)).1.getD s) (fun s => ?_) fun c' hc' => ?_
  · cases hmoved : (s.moved (.modify sub changes)).1 with
    | none => rfl
    | some t => exact Session.key_of_moved hmoved
  · simp only [act, updateSubscription, owner, hc'.owned sub howner, bind, Except.bind,
      Session.moved]
    cases hs : c'.session? key with
    | none => rw [session_of_get?_none hs]; rfl
    | some s =>
      rw [session_of_get? hs]
      simp only [Option.map_some, Option.getD_some]
      split
      · have hown : s.key = key := hk.own (hc'.session?.symm.trans hs)
        have hsame : c'.store s = c' := store_same (hown.symm ▸ hs)
        exact hsame.symm
      · rfl

theorem hasEffect_sessionPatched (hk : (c.view []).Keyed) {result : OperationResult}
    (hplain : ∀ result, action ≠ .event (.createResult key result))
    (hact : ∀ c' : Context, c'.act action = (c'.sessionPatched key result).1) :
    c.HasEffect key action := by
  refine hasEffect_of_store hk hplain (f := fun s => (s.patched result).1)
    (fun s => s.patched_key result) fun c' _ => ?_
  rw [hact, sessionPatched]
  cases c'.session? key <;> rfl

theorem hasEffect_subscriptionUpdated (hk : (c.view []).Keyed) {sub : SubscriptionKey}
    (howner : c.owners.get? sub = some key) {result : Except OperationResult SubscriptionAck}
    (hplain : ∀ result, action ≠ .event (.createResult key result))
    (hact : ∀ c' : Context, c'.act action = (c'.subscriptionUpdated sub result).1) :
    c.HasEffect key action := by
  refine hasEffect_of_store hk hplain (f := fun s => (s.subscriptionUpdated sub result).1)
    (fun s => s.subscriptionUpdated_key sub result) fun c' hc' => ?_
  rw [hact, subscriptionUpdated, hc'.owned sub howner, Option.bind_some]
  cases c'.session? key <;> rfl

-- What a subscription that nobody waits for was created as is removed.
theorem hasEffect_subscriptionCreated (hk : (c.view []).Keyed) {sub : SubscriptionKey}
    (howner : c.owners.get? sub = some key) {result : Except OperationResult SubscriptionAck}
    (hplain : ∀ result, action ≠ .event (.createResult key result))
    (hact : ∀ c' : Context, c'.act action = (c'.subscriptionCreated sub result).1) :
    c.HasEffect key action := by
  cases hanswered : (c.session? key).bind (·.subscriptionCreated? sub result) with
  | none =>
    let orphans := result.toOption.toList.map fun ack => Intent.deleteSubscription ack.id
    refine hasEffect_of_plain (e := { session? := c.session? key, intents := orphans }) hplain rfl
      fun c' hc' => ?_
    rw [← hc'.session?] at hanswered ⊢
    rw [hact, affect_same]
    unfold subscriptionCreated
    rw [hc'.owned sub howner, Option.bind_some, hanswered]
    cases result with
    | ok ack => rfl
    | error failure => exact (emit_nil c').symm
  | some p =>
    obtain ⟨s', calls⟩ := p
    obtain ⟨s, hs, hcreated⟩ := Option.bind_eq_some_iff.1 hanswered
    have hown : s'.key = key := (Session.key_of_subscriptionCreated? hcreated).trans (hk.own hs)
    refine hasEffect_of_plain (e := { session? := some s' }) hplain rfl fun c' hc' => ?_
    rw [hact, ← hown, affect_store]
    unfold subscriptionCreated
    rw [hc'.owned sub howner, Option.bind_some, hc'.session?, hanswered]

theorem hasEffect_push (hk : (c.view []).Keyed) : c.HasEffect key (.push key) := by
  cases hs : c.session? key with
  | none =>
    refine hasEffect_of_plain (e := { session? := none }) (by simp) rfl ?_
    intro c' hc'
    rw [← hs, ← hc'.session?, affect_same, emit_nil]
    simp only [act, push, session_of_get?_none (hc'.session?.trans hs)]
    rfl
  | some s =>
    cases hpush : s.push c.config with
    | mk s? intents =>
      cases s? with
      | none =>
        refine hasEffect_of_plain (e := .gone intents) (by simp) rfl
          fun c' hc' => ?_
        rw [affect_destroy]
        simp only [act, push, session_of_get? (hc'.session?.trans hs), bind, Except.bind,
          hc'.config, hpush]
        rfl
      | some s' =>
        have hown : s'.key = key :=
          (Session.key_of_push (congrArg Prod.fst hpush)).trans (hk.own hs)
        refine hasEffect_of_plain (e := .reindexed s' .kept intents)
          (by simp) rfl fun c' hc' => ?_
        rw [← hown, affect_reindex]
        simp only [act, push, hown, session_of_get? (hc'.session?.trans hs), bind, Except.bind,
          hc'.config, hpush]
        rfl

theorem hasEffect_creationTimedOut :
    c.HasEffect key (.event (.timeout (.createResource key))) := by
  cases hwaits : (c.session? key).bind fun s => s.waitingFor?.map fun w => s.timedOut w.2 with
  | none =>
    refine hasEffect_of_plain (e := { session? := c.session? key }) (by simp) rfl fun c' hc' => ?_
    rw [← hc'.session?, affect_same, emit_nil]
    show (c'.creationTimedOut key).1 = c'
    rw [creationTimedOut, hc'.session?, hwaits]
  | some calls =>
    refine hasEffect_of_plain (e := .gone []) (by simp) rfl fun c' hc' => ?_
    rw [affect_destroy, emit_nil]
    show (c'.creationTimedOut key).1 = _
    rw [creationTimedOut, hc'.session?, hwaits]

-- Once it is answered, a session that is known by a TMGI is found by it.
theorem hasEffect_createResult (hk : (c.view []).Keyed)
    (result : Except ProblemDetails SessionCreated) :
    c.HasEffect key (.event (.createResult key result)) := by
  cases hwaits : (c.session? key).bind Session.waitingFor? with
  | none =>
    refine ⟨{ session? := c.session? key, intents := removeOrphan key result }, fun tmgi => ?_,
      fun c' hc' => ?_⟩
    · refine iff_of_false (fun hname => ?_) fun hnames => ?_
      · cases hname
      · obtain ⟨-, ⟨s, hs, hstate⟩, -⟩ := hnames
        obtain ⟨body, bundled, hwait⟩ := Session.waitingFor?_of_state hstate
        rw [hs, Option.bind_some, hwait] at hwaits
        cases hwaits
    · rw [← hc'.session?] at hwaits ⊢
      rw [affect_same, act_unawaited hwaits]
  | some w =>
    obtain ⟨body, bundled⟩ := w
    obtain ⟨s, hs, hw⟩ := Option.bind_eq_some_iff.1 hwaits
    have hown : s.key = key := hk.own hs
    subst hown
    obtain ⟨s', hs', hact⟩ : ∃ s' : Session, s'.key = s.key ∧
        ∀ c' : Context, c'.session? s.key = some s →
          c'.act (.event (.createResult s.key result)) = c'.settle s' := by
      cases result with
      | ok answer =>
        exact ⟨_, s.created_key body bundled answer, fun c' hc' => act_created hc' hw answer⟩
      | error problem =>
        exact ⟨(s.refused bundled problem).1, rfl, fun c' hc' => act_refused hc' hw problem⟩
    refine ⟨.reindexed s' (.ofTmgi s'.identity.tmgi) [], fun tmgi => ?_, fun c' hc' => ?_⟩
    · have hget : (c.settle s').session? s.key = some s' := hs' ▸ session?_settle c s'
      have htmgi : (c.settle s').tmgi? s.key = s'.identity.tmgi := by
        rw [Context.tmgi?, hget, Option.bind_some]
      have hawaits : c.Awaits (.createResource s.key) :=
        ⟨s, hs, Session.state_of_waitingFor? hw⟩
      rw [Names, hact c hs, htmgi]
      show (Naming.ofTmgi s'.identity.tmgi).tmgi? = some tmgi ↔ _
      rw [Naming.tmgi?_ofTmgi]
      exact ⟨fun h => ⟨⟨result, rfl⟩, hawaits, h⟩, fun h => h.2.2⟩
    · rw [hact c' (hc'.session?.trans hs), ← hs', affect_settle]

/-- **A step of one session has an effect on this session, which hangs on it alone.** -/
theorem hasEffect (hk : (c.view []).Keyed) (hI : c.Indexed) (h : action.Concerns c key) :
    c.HasEffect key action := by
  cases h with
  | watched => exact hasEffect_watchSession hk
  | changed => exact hasEffect_changeSession hk _
  | modified hheld => exact hasEffect_updateSubscription hk (hI key _ hheld) _
  | deleted => exact hasEffect_deleteSession hk
  | pushed => exact hasEffect_push hk
  | @answered e hasked =>
    cases e with
    | createResult k result =>
      obtain rfl : k = key := hasked
      exact hasEffect_createResult hk result
    | patchResult k result =>
      obtain rfl : k = key := hasked
      cases result <;> exact hasEffect_sessionPatched hk (by simp) fun _ => rfl
    | subscriptionCreated sub result =>
      exact hasEffect_subscriptionCreated hk (hI key sub hasked) (by simp) fun _ => rfl
    | subscriptionUpdated sub result =>
      exact hasEffect_subscriptionUpdated hk (hI key sub hasked) (by simp) fun _ => rfl
    | timeout request =>
      cases request with
      | createResource k =>
        obtain rfl : k = key := hasked
        exact hasEffect_creationTimedOut
      | patchResource k =>
        obtain rfl : k = key := hasked
        exact hasEffect_sessionPatched hk (by simp) fun _ => rfl
      | createSubscription sub =>
        exact hasEffect_subscriptionCreated hk (hI key sub hasked) (by simp) fun _ => rfl
      | updateSubscription sub =>
        exact hasEffect_subscriptionUpdated hk (hI key sub hasked) (by simp) fun _ => rfl

end Context

end MbsClient
