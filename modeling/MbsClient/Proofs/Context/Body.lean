import MbsClient.Proofs.Context.Invariant
import MbsClient.Proofs.Context.Ledger
import MbsClient.Proofs.Session.Body

/-!
# Records along a run — what a session at rest has sent of its record

Where bodies are patched, the MB-SMF should know the record of every session that has nothing to
send. This fails for an answer to a creation that brings the TMGI the record has been given in the
meantime, while the record asks for one, and for no other reason (`bodiesKnown_iff_none_forgotten`).
-/

namespace MbsClient

namespace World

/-- The MB-SMF knows the records of all sessions that have nothing to send. -/
def BodiesKnown (w : World) : Prop :=
  ∀ key s, w.context.session? key = some s → s.AtRest → s.BodyKnown

/-- No record holds NaN. -/
def NoNaN (w : World) : Prop := ∀ key s, w.context.session? key = some s → s.data.NoNaN

/-- The session that forgets its request for a TMGI when an answer comes. -/
def forgotten (w : World) : Action → List SessionKey
  | .event (.createResult key (.ok answer)) =>
      if (w.context.session? key).any (·.forgets answer) then [key] else []
  | _ => []

variable {w : World}

-- The session that waits for the answer is the one it is looked at for.
theorem covered_created (hk : w.view.Keyed) (hw : w.view.All Session.Covered) {key : SessionKey}
    {answer : SessionCreated}
    (hforgotten : w.forgotten (.event (.createResult key (.ok answer))) = []) :
    (w.act (.event (.createResult key (.ok answer)))).view.All Session.Covered := by
  cases hwait : (w.context.session? key).bind Session.waitingFor? with
  | none =>
    rw [view_act_orphan hk hwait]
    exact hw
  | some waiting =>
    obtain ⟨s, hs, hwaits⟩ := Option.bind_eq_some_iff.1 hwait
    have hforgets : s.forgets answer = false := by
      simpa [forgotten, hs] using hforgotten
    rw [view_act_created hk hs hwaits]
    intro k t ht
    rcases View.get?_put ht with ⟨-, hput⟩ | ⟨-, ht⟩
    · rw [← Option.some.inj hput]
      exact Session.covered_created (hw key s hs) hwaits hforgets
    · exact hw k t ht

theorem covered_run {config : ClientConfig} (hconfig : config.sessionBodyPatch = true)
    {actions : List Action} (hforgotten : along forgotten { context := { config } } actions = []) :
    (run config actions).view.All Session.Covered := by
  induction actions using List.reverseRecOn with
  | nil => exact all_empty config
  | append_singleton actions a ih =>
    rw [along_append, List.append_eq_nil_iff] at hforgotten
    obtain ⟨hbefore, hlast⟩ := hforgotten
    have hlast : (run config actions).forgotten a = [] := (List.append_eq_nil_iff.1 hlast).1
    by_cases hcreated : ∃ key answer, a = .event (.createResult key (.ok answer))
    · obtain ⟨key, answer, rfl⟩ := hcreated
      rw [run_snoc]
      exact covered_created (keyed_run config actions) (ih hbefore) hlast
    · refine all_act Session.covered_new (ih hbefore) fun t ht => ?_
      cases t with
      | moved key m =>
        have hmakes := Context.makes_of_mem_script ht
        rw [config_run] at hmakes
        intro s s' _ h hs'
        refine Session.covered_moved h (fun config' hpush => ?_) (fun answer hanswer => ?_) hs'
        · have huses := Action.uses_of_makes hmakes
          rw [hpush] at huses
          rw [show config' = config from huses]
          exact hconfig
        · rw [hanswer] at hmakes
          cases hmakes
          exact absurd ⟨key, answer, rfl⟩ hcreated
      | opened => trivial
      | orphaned intents => trivial

theorem bodiesKnown_of_covered (h : w.view.All Session.Covered) (hnumbers : w.NoNaN) :
    w.BodiesKnown :=
  fun key s hs hrest => Session.bodyKnown_of_covered (h key s hs) hrest (hnumbers key s hs)

-- A forgotten session has nothing to send and an unknown record.
theorem not_bodiesKnown_of_forgotten (hk : w.view.Keyed) (h : w.view.All Session.Covered)
    {a : Action} (hforgotten : w.forgotten a ≠ []) : ¬ (w.act a).BodiesKnown := by
  intro hknown
  unfold forgotten at hforgotten
  split at hforgotten
  · rename_i key answer
    cases hs : w.context.session? key with
    | none => simp [hs] at hforgotten
    | some s =>
      have hforgets : s.forgets answer = true := by simpa [hs] using hforgotten
      cases hwait : s.waitingFor? with
      | none => simp [Session.forgets, hwait] at hforgets
      | some waiting =>
        obtain ⟨hrest, hunknown⟩ := Session.atRest_of_forgets (h key s hs) hwait hforgets
        have hview := view_act_created hk hs hwait answer
        have hget : (w.act (.event (.createResult key (.ok answer)))).view.sessions.get? key =
            some (s.created waiting.1 waiting.2 answer).1 := by
          rw [hview]
          exact SortedMap.get?_insert_self ..
        exact hunknown (hknown key _ hget hrest)
  · exact hforgotten rfl

end World

/-- **The records of sessions at rest are known throughout a run exactly if no session forgets a
request for a TMGI**, provided that bodies are patched and no record holds NaN. -/
theorem bodiesKnown_iff_none_forgotten (config : ClientConfig) (actions : List Action)
    (hconfig : config.sessionBodyPatch = true)
    (hnumbers : ∀ before, before <+: actions → (World.run config before).NoNaN) :
    (∀ before, before <+: actions → (World.run config before).BodiesKnown) ↔
      World.along World.forgotten { context := { config } } actions = [] := by
  constructor
  · intro h
    induction actions using List.reverseRecOn with
    | nil => rfl
    | append_singleton actions a ih =>
      have hprefix := List.prefix_append actions [a]
      have hbefore := ih (fun before hb => hnumbers before (hb.trans hprefix))
        fun before hb => h before (hb.trans hprefix)
      rw [World.along_append, hbefore, List.nil_append, World.along, World.along, List.append_nil]
      by_contra hforgotten
      have hknown := h (actions ++ [a]) List.prefix_rfl
      rw [World.run_snoc] at hknown
      exact World.not_bodiesKnown_of_forgotten (World.keyed_run config actions)
        (World.covered_run hconfig hbefore) hforgotten hknown
  · rintro hnone before ⟨after, rfl⟩
    rw [World.along_append, List.append_eq_nil_iff] at hnone
    exact World.bodiesKnown_of_covered (World.covered_run hconfig hnone.1)
      (hnumbers before (List.prefix_append before after))

/-- Changed bodies are sent. -/
def patchingConfig : ClientConfig := { sessionBodyPatch := true }

/-- A session is given a TMGI and asks for one, and the answer to its creation names the same. -/
def sameTmgi : List Action :=
  let tmgi : Tmgi := { mbsServiceId := "0000AB", plmnId := { mcc := "001", mnc := "01" } }
  [.newSession, .changeSession 1 (.tmgi (some tmgi)), .changeSession 1 (.tmgiAllocReq true),
    .push 1, .event (.createResult 1 (.ok { resourceId := "r", tmgi := some tmgi }))]

/-- The session keeps a request that is neither sent nor taken back. -/
theorem bodies_unknown_sameTmgi :
    (∀ before, before <+: sameTmgi → (World.run patchingConfig before).NoNaN) ∧
      ¬ ∀ before, before <+: sameTmgi → (World.run patchingConfig before).BodiesKnown := by
  -- no record has a service area that could hold NaN
  have hareas : ∀ before ∈ sameTmgi.inits,
      ∀ e ∈ (World.run patchingConfig before).context.sessions.entries,
        e.2.data.extMbsServiceArea = none := by decide
  have hnumbers : ∀ before, before <+: sameTmgi → (World.run patchingConfig before).NoNaN := by
    intro before hb key s hs a ha
    have hnone := hareas before ((List.mem_inits ..).2 hb) (key, s) (SortedMap.mem_entries.2 hs)
    rw [hnone] at ha
    cases ha
  refine ⟨hnumbers, fun h => ?_⟩
  have hnone := (bodiesKnown_iff_none_forgotten patchingConfig sameTmgi rfl hnumbers).1 h
  have hforgotten : World.along World.forgotten { context := { config := patchingConfig } }
      sameTmgi = [1] := rfl
  rw [hforgotten] at hnone
  cases hnone

end MbsClient
