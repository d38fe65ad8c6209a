import MbsClient.Proofs.Plan.Load
import MbsClient.Proofs.Plan.Simulated

/-!
# Plans settle — two rounds bring every session of a scenario up

With simulated success, the first round creates the sessions with their first subscriptions, the
second one creates all other subscriptions, and a third one would have nothing to send
(`plan_settles`). The exception is a session whose body differs from itself, because it has a number
that is none: where bodies are patched, its second round is not quiet
(`plan_patches_nan_uncertainty`).
-/

namespace MbsClient

-- What is on the right has something on the left.
theorem exists_left_of_forall₂ {α β : Type} {R : α → β → Prop} {as : List α} {bs : List β}
    (h : List.Forall₂ R as bs) {b : β} (hb : b ∈ bs) : ∃ a ∈ as, R a b := by
  induction h with
  | nil => cases hb
  | @cons a b' as bs hab _ ih =>
    rcases List.mem_cons.1 hb with rfl | hb
    · exact ⟨a, List.mem_cons_self, hab⟩
    · obtain ⟨a', ha', hab'⟩ := ih hb
      exact ⟨a', List.mem_cons_of_mem a ha', hab'⟩

namespace Session

/-- If the body is compared with what was sent of it, it is made of numbers. -/
def Comparable (config : ClientConfig) (s : Session) : Prop :=
  config.sessionBodyPatch = true → 2 ≤ s.pendingNew.length → s.data.NoNaN

theorem remoteIds_sentNew (config : ClientConfig) (begun : List Session) :
    (begun.map (sentNew config)).flatMap remoteIds = begun.flatMap remoteIds :=
  List.flatMap_map ..

end Session

/-! ## 1. Pushing at each stage -/

namespace Context.Lists

open Session (Begun Complete)

variable {c : Context} {wanted ss : List Session} {config : ClientConfig}

theorem takeIntents (h : c.Lists ss) : c.takeIntents.2.Lists ss := ⟨h.entries, h.owned⟩

theorem pushAll_fresh (h : c.Lists wanted) (hfresh : ∀ s ∈ wanted, s.Fresh)
    (hconfig : c.config = config) :
    c.pushAll.Lists (wanted.map (Session.asked config)) ∧ c.pushAll.config = c.config ∧
      c.pushAll.outbox = c.outbox ++ wanted.map (Session.creation config) := by
  have hpushed := h.pushAll (f := Session.asked config) (g := fun s => [s.creation config])
    (fun s hs => by rw [hconfig, Session.push_of_fresh (hfresh s hs)]) (fun s hs => rfl)
    (fun s hs => Session.subscriptionKeys_asked (hfresh s hs) config)
  rwa [← List.map_eq_flatMap] at hpushed

theorem pushAll_begun {begun : List Session} (h : c.Lists begun)
    (hbegun : List.Forall₂ Begun wanted begun) (hfresh : ∀ s ∈ wanted, s.Fresh)
    (hcomparable : ∀ s ∈ wanted, s.Comparable config) (hconfig : c.config = config) :
    c.pushAll.Lists (begun.map (Session.sentNew config)) ∧ c.pushAll.config = c.config ∧
      c.pushAll.outbox = c.outbox ++ begun.flatMap fun t => t.further config t.pendingNew := by
  refine h.pushAll (fun t ht => ?_) (fun t ht => rfl)
    (fun t ht => Session.subscriptionKeys_sentNew config t)
  obtain ⟨s, hs, hst⟩ := exists_left_of_forall₂ hbegun ht
  obtain ⟨r, hgranted⟩ := hst.granted
  have hdue : ∀ sub ∈ t.pendingNew, sub.isDue = true := by
    rw [hst.new]
    exact fun sub hsub => (hfresh s hs).due sub (List.mem_of_mem_tail hsub)
  have hdirty : t.dirty = !t.pendingNew.isEmpty := by rw [hst.dirty, hst.new]
  have hnumbers : config.sessionBodyPatch = true → t.pendingNew ≠ [] → s.data.NoNaN := by
    intro hpatches hnew
    refine hcomparable s hs hpatches ?_
    rw [hst.new] at hnew
    have hlength := List.length_pos_iff.2 hnew
    rw [List.length_tail] at hlength
    omega
  rw [hconfig, Session.push_of_granted hgranted hdue hdirty hnumbers,
    Session.further_of_registered hgranted.remote]

theorem pushAll_complete {complete : List Session} (h : c.Lists complete)
    (hcomplete : List.Forall₂ Complete wanted complete) :
    c.pushAll.Lists complete ∧ c.pushAll.config = c.config ∧ c.pushAll.outbox = c.outbox := by
  have hpushed := h.pushAll (f := id) (g := fun _ => []) (fun t ht => ?_) (fun _ _ => rfl)
    (fun _ _ => rfl)
  · have hnone : complete.flatMap (fun _ => ([] : List Intent)) = [] := by simp
    rwa [List.map_id, hnone, List.append_nil] at hpushed
  · obtain ⟨s, -, hst⟩ := exists_left_of_forall₂ hcomplete ht
    obtain ⟨r, hgranted⟩ := hst.granted
    exact Session.push_of_settled hgranted hst.dirty c.config

end Context.Lists

/-! ## 2. The plan from each stage on -/

namespace Plan

open Session (Begun Complete)

variable {c : Context} {wanted : List Session} {config : ClientConfig}

/-- What a plan comes to: its rounds were the given ones, as far as these are not empty, and all
sessions are complete. -/
structure Completes (plan : Plan) (wanted complete : List Session) (rounds : List (List Intent)) :
    Prop where
  sessions : List.Forall₂ Complete wanted complete
  context : plan.context.Lists complete
  outbox : plan.context.outbox = []
  rounds : plan.rounds = rounds.filter fun round => !round.isEmpty

theorem Completes.cons {plan : Plan} {complete : List Session} {rounds : List (List Intent)}
    (h : plan.Completes wanted complete rounds) {intents : List Intent} (hsome : intents ≠ []) :
    Completes ⟨intents :: plan.rounds, plan.context⟩ wanted complete (intents :: rounds) := by
  refine ⟨h.sessions, h.context, h.outbox, ?_⟩
  cases intents with
  | nil => exact absurd rfl hsome
  | cons i intents => exact congrArg (List.cons (i :: intents)) h.rounds

-- A round without intents ends the plan.
theorem build_idle (hpushed : c.pushAll.outbox = []) (left : Nat) (sim : Simulator) :
    build true (left + 1) sim c = ⟨[], c.pushAll.takeIntents.2⟩ := by
  simp only [build, Context.takeIntents, hpushed]
  rfl

theorem build_complete {complete : List Session} (h : c.Lists complete)
    (hcomplete : List.Forall₂ Complete wanted complete) (houtbox : c.outbox = []) (left : Nat)
    (sim : Simulator) : (build true (left + 1) sim c).Completes wanted complete [] := by
  obtain ⟨hlists, -, hpushed⟩ := h.pushAll_complete hcomplete
  rw [houtbox] at hpushed
  rw [build_idle hpushed]
  exact ⟨hcomplete, hlists.takeIntents, rfl, rfl⟩

-- A round with intents that are answered, and what comes after it.
theorem build_round {intents : List Intent} (hpushed : c.pushAll.outbox = intents)
    (hsome : intents ≠ []) (left : Nat) (sim : Simulator) {c' : Context} {sim' : Simulator}
    (hsim : c.pushAll.takeIntents.2.simulateAll sim intents = (c', sim')) :
    build true (left + 1) sim c =
      ⟨intents :: (build true left sim' c').rounds, (build true left sim' c').context⟩ := by
  have htaken : c.pushAll.takeIntents = (intents, c.pushAll.takeIntents.2) := by
    rw [← hpushed]
    rfl
  have hnone : intents.isEmpty = false := by rwa [List.isEmpty_eq_false_iff]
  rw [build, htaken]
  simp only [hnone, Bool.false_eq_true, if_false, if_true, hsim]

theorem build_begun {begun : List Session} (h : c.Lists begun)
    (hbegun : List.Forall₂ Begun wanted begun) (hfresh : ∀ s ∈ wanted, s.Fresh)
    (hcomparable : ∀ s ∈ wanted, s.Comparable config) (hconfig : c.config = config)
    (houtbox : c.outbox = []) {sim : Simulator} (hgave : sim.Gave (begun.flatMap Session.remoteIds))
    (left : Nat) : ∃ complete, (complete.flatMap Session.remoteIds).Nodup ∧
      (build true (left + 2) sim c).Completes wanted complete
        [Session.furtherAll config wanted complete] := by
  obtain ⟨hlists, -, hpushed⟩ := h.pushAll_begun hbegun hfresh hcomparable hconfig
  rw [houtbox, List.nil_append] at hpushed
  rw [← Session.remoteIds_sentNew config] at hgave
  obtain ⟨⟨c', sim'⟩, hsim⟩ : ∃ after, c.pushAll.takeIntents.2.simulateAll sim
      (begun.flatMap fun t => t.further config t.pendingNew) = after := ⟨_, rfl⟩
  obtain ⟨complete, hcomplete, hlists', hgave', hquiet, hround⟩ :=
    Context.simulateAll_further [] hfresh hbegun hlists.takeIntents hgave hsim
  refine ⟨complete, hgave'.nodup, ?_⟩
  rw [← hround]
  by_cases hnone : begun.flatMap (fun t => t.further config t.pendingNew) = []
  · rw [hnone] at hsim hpushed ⊢
    obtain ⟨rfl, rfl⟩ := Prod.mk.inj hsim
    rw [build_idle hpushed]
    exact ⟨hcomplete, hlists', rfl, rfl⟩
  · rw [build_round hpushed hnone (left + 1) sim hsim]
    exact (build_complete hlists' hcomplete hquiet.2 left sim').cons hnone

theorem build_fresh (h : c.Lists wanted) (hfresh : ∀ s ∈ wanted, s.Fresh)
    (hcomparable : ∀ s ∈ wanted, s.Comparable config) (hconfig : c.config = config)
    (houtbox : c.outbox = []) (left : Nat) :
    ∃ complete, (complete.flatMap Session.remoteIds).Nodup ∧
      (build true (left + 3) {} c).Completes wanted complete
        [wanted.map (Session.creation config), Session.furtherAll config wanted complete] := by
  by_cases hnone : wanted = []
  · subst hnone
    have hdone := build_complete h .nil houtbox (left + 2) {}
    exact ⟨[], List.nodup_nil, hdone.sessions, hdone.context, hdone.outbox, hdone.rounds⟩
  · obtain ⟨hlists, hkept, hpushed⟩ := h.pushAll_fresh hfresh hconfig
    rw [houtbox, List.nil_append] at hpushed
    obtain ⟨⟨c', sim'⟩, hsim⟩ : ∃ after, c.pushAll.takeIntents.2.simulateAll {}
        (wanted.map (Session.creation config)) = after := ⟨_, rfl⟩
    obtain ⟨begun, hbegun, hlists', hgave, hquiet⟩ :=
      Context.simulateAll_creations [] hfresh hlists.takeIntents
        ⟨List.nodup_nil, fun _ hid => nomatch hid⟩ hsim
    obtain ⟨complete, hnodup, hrest⟩ := build_begun hlists' hbegun hfresh hcomparable
      (hquiet.1.trans (hkept.trans hconfig)) hquiet.2 hgave left
    have hsome : wanted.map (Session.creation config) ≠ [] := by simpa using hnone
    rw [build_round hpushed hsome (left + 2) {} hsim]
    exact ⟨complete, hnodup, hrest.cons hsome⟩

/-! ## 3. The plan for a scenario -/

/-- A plan has brought sessions up. -/
structure BringsUp (plan : Plan) (config : ClientConfig) (wanted settled : List Session) :
    Prop where
  /-- The first round creates each session with its first subscription, the second round creates
  all other subscriptions under the ids of their sessions. There is no round without requests. -/
  rounds : plan.rounds =
    [wanted.map (Session.creation config), Session.furtherAll config wanted settled].filter
      fun round => !round.isEmpty
  short : plan.rounds.length ≤ 2
  sessions : plan.context.sessions.values = settled
  each : List.Forall₂ Session.Settled wanted settled
  /-- Neither sessions nor subscriptions share an id. -/
  ids : (settled.flatMap Session.remoteIds).Nodup
  outbox : plan.context.outbox = []
  /-- One more push would not send anything. -/
  idle : plan.context.pushAll.outbox = []

theorem Completes.bringsUp {plan : Plan} {complete : List Session}
    (h : plan.Completes wanted complete
      [wanted.map (Session.creation config), Session.furtherAll config wanted complete])
    (hids : (complete.flatMap Session.remoteIds).Nodup) : plan.BringsUp config wanted complete where
  rounds := h.rounds
  short := by
    rw [h.rounds]
    exact List.length_filter_le _ _
  sessions := h.context.values
  each := h.sessions.imp fun _ _ hst => hst.settles
  ids := hids
  outbox := h.outbox
  idle := by
    obtain ⟨-, -, hpushed⟩ := h.context.pushAll_complete h.sessions
    rw [hpushed, h.outbox]

end Plan

namespace Scenario

/-- Where bodies are patched, those of sessions with two or more subscriptions are made of
numbers. -/
def Comparable (config : ClientConfig) (scenario : Scenario) : Prop :=
  config.sessionBodyPatch = true → ∀ entry ∈ scenario.sessions, 2 ≤ entry.subscriptions.length →
    entry.session.NoNaN

theorem fresh_wanted (scenario : Scenario) : ∀ s ∈ scenario.wanted, s.Fresh := by
  intro s hs
  obtain ⟨entry, -, key, first, rfl⟩ := exists_left_of_forall₂ (forall₂_opened 1 1 _) hs
  exact entry.fresh_opened key first

theorem Comparable.wanted {scenario : Scenario} {config : ClientConfig}
    (h : scenario.Comparable config) : ∀ s ∈ scenario.wanted, s.Comparable config := by
  intro s hs hpatches hlength
  obtain ⟨entry, hentry, key, first, rfl⟩ := exists_left_of_forall₂ (forall₂_opened 1 1 _) hs
  rw [entry.length_opened] at hlength
  exact h hpatches entry hentry hlength

end Scenario

/-- **Planning with simulated success settles**: whatever scenario has been loaded, its sessions are
brought up in at most two rounds. -/
theorem plan_settles {scenario : Scenario} {config : ClientConfig}
    {keys : List (String × SessionKey)} {c : Context}
    (hload : scenario.load { config } = .ok (keys, c)) (hcomparable : scenario.Comparable config) :
    ∃ settled, (Plan.ofContext true c).BringsUp config scenario.wanted settled := by
  obtain ⟨hlists, hconfig, houtbox⟩ := Scenario.load_lists hload
  obtain ⟨complete, hids, hcompletes⟩ :=
    Plan.build_fresh hlists scenario.fresh_wanted hcomparable.wanted hconfig houtbox 13
  exact ⟨complete, hcompletes.bringsUp hids⟩

/-- A session that asks for a TMGI and has two subscriptions, and one without any. -/
def newsAndAlerts : Scenario where
  sessions := [{ name := "news", session := { tmgiAllocReq := true }, subscriptions := [{}, {}] },
    { name := "alerts", session := {} }]

theorem plan_settles_newsAndAlerts :
    ∃ keys c settled, newsAndAlerts.load { config := { sessionBodyPatch := true } } =
        .ok (keys, c) ∧
      newsAndAlerts.Comparable { sessionBodyPatch := true } ∧
      (Plan.ofContext true c).BringsUp { sessionBodyPatch := true } newsAndAlerts.wanted settled ∧
      (Plan.ofContext true c).rounds.map (·.map Intent.name) =
        [["CreateResource", "CreateResource"], ["CreateSubscription"]] := by
  have hcomparable : newsAndAlerts.Comparable { sessionBodyPatch := true } := by
    intro _ entry hentry _ area harea
    rcases List.mem_cons.1 hentry with rfl | hentry
    · cases harea
    · rw [List.mem_singleton.1 hentry] at harea
      cases harea
  obtain ⟨settled, hsettled⟩ := plan_settles rfl hcomparable
  exact ⟨_, _, settled, rfl, hcomparable, hsettled, rfl⟩

/-! ## 4. A body without numbers -/

/-- An area around a point of numbers. -/
def vagueArea : CircleArea where
  point := ⟨.ofInt 1, .ofInt 2⟩
  uncertainty := .ofDouble .nan

/-- A session with this area and two subscriptions. -/
def vague : Scenario where
  sessions := [{
    name := "news"
    session := { extMbsServiceArea := some { geographicAreaList := [.circle vagueArea] } }
    subscriptions := [{}, {}] }]

/-- The coordinates are numbers, yet the second round also patches what has just been created. -/
theorem plan_patches_nan_uncertainty :
    vagueArea.point.NoNaN ∧ ∃ keys c, vague.load { config := { sessionBodyPatch := true } } =
        .ok (keys, c) ∧
      (Plan.ofContext true c).rounds.map (·.map Intent.name) =
        [["CreateResource"], ["PatchResource", "CreateSubscription"]] :=
  ⟨⟨by decide, by decide⟩, _, _, rfl, by decide⟩

end MbsClient
