import MbsClient.Proofs.Context.Subscribers

/-!
# Invariants — what all sessions of a run have in common

A property of sessions holds along every run if a new session has it and every move keeps it
(`all_run`). A session that moves has no subscription twice, and it is pushed with the configuration
of the run. What sessions with the property send is all that a run emits, but for the removal of
what was created for nobody (`sent_run`).
-/

namespace MbsClient

/-- A push is made with the configuration. -/
def Session.Move.Uses (config : ClientConfig) : Move → Prop
  | .push config' => config' = config
  | _ => True

theorem Action.uses_of_makes {config : ClientConfig} {a : Action} {key : SessionKey}
    {m : Session.Move} (h : a.Makes config (.moved key m)) : m.Uses config := by
  cases h with
  | pushed => rfl
  | allPushed => rfl
  | _ => trivial

/-- The session that moves keeps a property. -/
def Transition.Keeps (P : Session → Prop) : Transition → Prop
  | .moved _ m =>
      ∀ s s', s.subscriptionKeys.Nodup → P s → (s.moved m).1 = some s' → P s'
  | _ => True

namespace View

/-- What all sessions have in common. -/
def All (P : Session → Prop) (v : View) : Prop := ∀ key s, v.sessions.get? key = some s → P s

variable {P : Session → Prop} {v : View}

theorem nodup_of_count_subscribers (honce : ∀ k, v.subscribers.count k ≤ 1) {key : SessionKey}
    {s : Session} (h : v.sessions.get? key = some s) : s.subscriptionKeys.Nodup := by
  rw [List.nodup_iff_count_le_one]
  intro k
  have herase := v.sessions.count_erase Session.subscriptionKeys k key
  rw [h, Option.map_some, Option.getD_some] at herase
  have hv : (v.sessions.values.flatMap Session.subscriptionKeys).count k ≤ 1 := honce k
  omega

theorem all_apply (hnew : ∀ key, P { key }) (honce : ∀ k, v.subscribers.count k ≤ 1)
    (hv : v.All P) {t : Transition} (ht : t.Keeps P) : (v.apply t).All P := by
  intro key s' h
  cases sessionFrom h with
  | kept hs => exact hv key s' hs
  | opened hkey hs => exact hs ▸ hnew key
  | moved hs hm => exact ht _ s' (nodup_of_count_subscribers honce hs) (hv key _ hs) hm

theorem all_foldl (hnew : ∀ key, P { key }) (hk : v.Keyed)
    (honce : ∀ k, v.subscribers.count k ≤ 1) (hv : v.All P) {ts : List Transition}
    (hkeeps : ∀ t ∈ ts, t.Keeps P) (hts : ∀ t ∈ ts.dropLast, t.incoming = []) :
    (ts.foldl apply v).All P := by
  -- on the steps; no subscription is had twice as long as nothing has come in
  induction ts generalizing v with
  | nil => exact hv
  | cons t ts ih =>
    have hfirst := all_apply hnew honce hv (hkeeps t List.mem_cons_self)
    cases ts with
    | nil => exact hfirst
    | cons u ts =>
      refine ih (keyed_apply hk t) (fun k => ?_) hfirst
        (fun w hw => hkeeps w (List.mem_cons_of_mem _ hw))
        fun w hw => hts w (List.mem_cons_of_mem _ hw)
      have hcount := count_subscribers_apply hk t k
      rw [hts t List.mem_cons_self, List.count_nil] at hcount
      exact Nat.le_trans hcount (honce k)

/-- What the steps of a script emit. -/
def sent (v : View) : List Transition → List Intent
  | [] => []
  | t :: ts => v.sends t ++ sent (v.apply t) ts

theorem emitted_foldl_eq (v : View) (ts : List Transition) :
    (ts.foldl apply v).emitted = v.emitted ++ v.sent ts := by
  induction ts generalizing v with
  | nil => exact (List.append_nil _).symm
  | cons t ts ih => rw [List.foldl_cons, ih, emitted_apply_eq, sent, List.append_assoc]

theorem exists_of_mem_sent {ts : List Transition} {i : Intent} (h : i ∈ v.sent ts) :
    ∃ before t after, ts = before ++ t :: after ∧ i ∈ (before.foldl apply v).sends t := by
  induction ts generalizing v with
  | nil => cases h
  | cons t ts ih =>
    rcases List.mem_append.1 h with h | h
    · exact ⟨[], t, ts, rfl, h⟩
    · obtain ⟨before, u, after, rfl, hi⟩ := ih h
      exact ⟨t :: before, u, after, rfl, hi⟩

theorem mem_emitted_foldl {ts : List Transition} {i : Intent}
    (h : i ∈ (ts.foldl apply v).emitted) :
    i ∈ v.emitted ∨ ∃ before t after, ts = before ++ t :: after ∧
      i ∈ (before.foldl apply v).sends t := by
  rw [emitted_foldl_eq, List.mem_append] at h
  exact h.imp_right exists_of_mem_sent

end View

namespace World

variable {P : Session → Prop}

theorem all_empty (config : ClientConfig) : (run config []).view.All P := by
  intro key s h
  simp [run, acts, view, Context.view] at h

theorem all_act (hnew : ∀ key, P { key }) {config : ClientConfig} {actions : List Action}
    (hP : (run config actions).view.All P) {a : Action}
    (hkeeps : ∀ t ∈ (run config actions).context.script a, t.Keeps P) :
    (run config (actions ++ [a])).view.All P := by
  rw [run_snoc, view_act (keyed_run config actions)]
  exact View.all_foldl hnew (keyed_run config actions) (count_subscribers_run config actions) hP
    hkeeps (Context.incoming_dropLast_script _ a)

theorem makes_of_mem_script (config : ClientConfig) (actions : List Action) {a : Action}
    {t : Transition} (h : t ∈ (run config actions).context.script a) : a.Makes config t := by
  rw [← config_run config actions]
  exact Context.makes_of_mem_script h

/-- **What every move keeps, all sessions have** at any time. -/
theorem all_run {config : ClientConfig} (hnew : ∀ key, P { key })
    (hmoved : ∀ (m : Session.Move) (s s' : Session), m.Uses config → s.subscriptionKeys.Nodup →
      P s → (s.moved m).1 = some s' → P s') (actions : List Action) :
    (run config actions).view.All P := by
  induction actions using List.reverseRecOn with
  | nil => exact all_empty config
  | append_singleton actions a ih =>
    refine all_act hnew ih fun t ht => ?_
    cases t with
    | moved key m =>
      have hmakes := makes_of_mem_script config actions ht
      exact fun s s' => hmoved m s s' (Action.uses_of_makes hmakes)
    | opened => trivial
    | orphaned intents => trivial

section

variable {config : ClientConfig} (hnew : ∀ key, P { key })
  (hmoved : ∀ (m : Session.Move) (s s' : Session), m.Uses config → s.subscriptionKeys.Nodup →
    P s → (s.moved m).1 = some s' → P s')

include hnew hmoved

-- The sessions have the property at every step of an action.
theorem all_before {actions : List Action} {a : Action} {before after : List Transition}
    (h : (run config actions).context.script a = before ++ after) (hafter : after ≠ []) :
    (before.foldl View.apply (run config actions).view).All P := by
  refine View.all_foldl hnew (keyed_run config actions) (count_subscribers_run config actions)
    (all_run hnew hmoved actions) ?_ ?_
  · intro t ht
    cases t with
    | moved key m =>
      have hmakes := makes_of_mem_script config actions (h ▸ List.mem_append_left after ht)
      exact fun s s' => hmoved m s s' (Action.uses_of_makes hmakes)
    | opened => trivial
    | orphaned intents => trivial
  · intro t ht
    apply Context.incoming_dropLast_script (run config actions).context a
    rw [h, List.dropLast_append_of_ne_nil hafter]
    exact List.mem_append_left _ (List.mem_of_mem_dropLast ht)

/-- **What sessions with a kept property send, a run emits**, and the removals of what was created
for nobody. -/
theorem sent_run {Q : Intent → Prop}
    (hsent : ∀ (m : Session.Move) (s : Session), P s → ∀ i ∈ (s.moved m).2, Q i)
    (hremoval : ∀ key id, Q (.removeResource key id)) (hdeletion : ∀ id, Q (.deleteSubscription id))
    (actions : List Action) : ∀ i ∈ (run config actions).emitted, Q i := by
  induction actions using List.reverseRecOn with
  | nil => simp [run, acts, emitted]
  | append_singleton actions a ih =>
    intro i hi
    have hview : i ∈ ((run config actions).act a).view.emitted := by rwa [run_snoc] at hi
    rw [view_act (keyed_run config actions)] at hview
    rcases View.mem_emitted_foldl hview with hi | ⟨before, t, after, hscript, hi⟩
    · exact ih i hi
    · have hall := all_before hnew hmoved hscript (List.cons_ne_nil t after)
      have hmakes := makes_of_mem_script config actions (hscript ▸ List.mem_append_cons_self)
      cases View.sentBy hi with
      | moved hs hmem => exact hsent _ _ (hall _ _ hs) i hmem
      | orphaned hmem =>
        rcases hmakes.orphans i hmem with ⟨key, id, rfl⟩ | ⟨id, rfl⟩
        · exact hremoval key id
        · exact hdeletion id

end

end World

end MbsClient
