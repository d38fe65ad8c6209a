import MbsClient.Proofs.Context.Tmgis

/-!
# Look-up — sessions found by TMGI

Two things put the index of TMGIs out of step with what the sessions know (`Context.Lapse`), and
nothing else does (`findsByTmgi_iff_no_lapse`).
-/

namespace MbsClient

namespace Context

variable {c : Context}

/-! ## 1. Lapses -/

/-- The look-up by TMGI agrees with what the sessions know. -/
structure FindsByTmgi (c : Context) : Prop where
  /-- Some session is found exactly if there is one for which the TMGI has been acknowledged. -/
  found : ∀ tmgi, (c.sessionByTmgi? tmgi).isSome = true ↔
    ∃ key s, c.session? key = some s ∧ s.identity.tmgi = some tmgi
  /-- It is one of these that is found. -/
  acknowledged : ∀ tmgi s, c.sessionByTmgi? tmgi = some s → s.identity.tmgi = some tmgi

/-- The look-up by a TMGI fails from an action on. -/
inductive Lapse (c : Context) : Action → Tmgi → Prop
  /-- The session that is found by the TMGI has been created again without one, and the answer
  names none. -/
  | unnamed {tmgi : Tmgi} {s : Session} {body : MbsSession} {bundled : Option SubscriptionKey}
      {answer : SessionCreated} (found : c.sessionByTmgi? tmgi = some s)
      (waits : s.waitingFor? = some (body, bundled)) (asked : body.tmgi = none)
      (answered : answer.tmgi = none) : Lapse c (.event (.createResult s.key (.ok answer))) tmgi
  /-- The session that is found goes or gets another TMGI while another session has the same. -/
  | shared {a : Action} {tmgi : Tmgi} {s : Session} {key : SessionKey}
      (found : c.sessionByTmgi? tmgi = some s) (lost : (c.act a).tmgi? s.key ≠ some tmgi)
      (other : (c.act a).tmgi? key = some tmgi) : Lapse c a tmgi

/-- The index leads to sessions that know the TMGI, and it leads to one wherever there is one. -/
structure IndexesTmgis (c : Context) : Prop where
  sound : ∀ t key, c.tmgiOwners.get? t = some key → c.tmgi? key = some t
  complete : ∀ t key, c.tmgi? key = some t → ∃ o, c.tmgiOwners.get? t = some o

theorem tmgi?_eq_some {key : SessionKey} {t : Tmgi} :
    c.tmgi? key = some t ↔ ∃ s, c.session? key = some s ∧ s.identity.tmgi = some t :=
  Option.bind_eq_some_iff

theorem sessionByTmgi?_eq_some (hk : (c.view []).Keyed) {t : Tmgi} {s : Session} :
    c.sessionByTmgi? t = some s ↔ c.tmgiOwners.get? t = some s.key ∧ c.session? s.key = some s := by
  rw [sessionByTmgi?, Option.bind_eq_some_iff]
  constructor
  · rintro ⟨key, hindex, hs⟩
    rw [hk.own hs]
    exact ⟨hindex, hs⟩
  · rintro ⟨hindex, hs⟩
    exact ⟨s.key, hindex, hs⟩

theorem IndexesTmgis.findsByTmgi (h : c.IndexesTmgis) (hk : (c.view []).Keyed) :
    c.FindsByTmgi := by
  constructor
  · intro t
    constructor
    · intro hfound
      obtain ⟨s, hs⟩ := Option.isSome_iff_exists.1 hfound
      obtain ⟨hindex, -⟩ := (sessionByTmgi?_eq_some hk).1 hs
      exact ⟨s.key, tmgi?_eq_some.1 (h.sound t s.key hindex)⟩
    · rintro ⟨key, hknown⟩
      obtain ⟨o, ho⟩ := h.complete t key (tmgi?_eq_some.2 hknown)
      obtain ⟨s, hs, -⟩ := tmgi?_eq_some.1 (h.sound t o ho)
      rw [sessionByTmgi?, ho, Option.bind_some, hs, Option.isSome_some]
  · intro t s hs
    obtain ⟨hindex, hget⟩ := (sessionByTmgi?_eq_some hk).1 hs
    obtain ⟨s', hs', ht⟩ := tmgi?_eq_some.1 (h.sound t s.key hindex)
    rw [hget] at hs'
    rwa [Option.some.inj hs']

-- A session to which a sound index leads is found.
theorem IndexesTmgis.found (h : c.IndexesTmgis) (hk : (c.view []).Keyed) {t : Tmgi}
    {key : SessionKey} (hindex : c.tmgiOwners.get? t = some key) :
    ∃ s, s.key = key ∧ c.sessionByTmgi? t = some s := by
  obtain ⟨s, hs, -⟩ := tmgi?_eq_some.1 (h.sound t key hindex)
  have hown : s.key = key := hk.own hs
  exact ⟨s, hown, (sessionByTmgi?_eq_some hk).2 (hown ▸ ⟨hindex, hs⟩)⟩

theorem indexesTmgis_settled (hk : (c.view []).Keyed) (hI : c.IndexesTmgis) {a : Action}
    (hlapse : ∀ t, ¬ c.Lapse a t) (h : c.Settled (c.act a)) : (c.act a).IndexesTmgis := by
  constructor
  · intro t key hindex
    rcases h key with ⟨hknown, hfound⟩ | ⟨-, hnot⟩
    · rw [hknown]
      exact hI.sound t key ((hfound t).1 hindex)
    · exact absurd hindex (hnot t)
  · intro t key hknows
    rcases h key with ⟨hknown, -⟩ | ⟨hnone, -⟩
    · obtain ⟨o, ho⟩ := hI.complete t key (hknown ▸ hknows)
      rcases h o with ⟨-, hfound⟩ | ⟨hgone, -⟩
      · exact ⟨o, (hfound t).2 ho⟩
      · -- the session that was found has gone, and this one has the same TMGI
        obtain ⟨s, hown, hs⟩ := hI.found hk ho
        refine absurd (Lapse.shared hs ?_ hknows) (hlapse t)
        rw [hown, hgone]
        simp
    · rw [hnone] at hknows
      cases hknows

theorem indexesTmgis_named (hk : (c.view []).Keyed) (hI : c.IndexesTmgis) {a : Action}
    (hlapse : ∀ t, ¬ c.Lapse a t) {key : SessionKey} {tmgi : Tmgi}
    (h : c.Named (c.act a) key tmgi) : (c.act a).IndexesTmgis := by
  constructor
  · intro t k hindex
    by_cases ht : t = tmgi
    · rw [ht, h.found] at hindex
      rw [← Option.some.inj hindex, h.self, ht]
    · obtain ⟨hne, hbefore⟩ := (h.kept t ht k).1 hindex
      rw [h.others k hne]
      exact hI.sound t k hbefore
  · intro t k hknows
    by_cases ht : t = tmgi
    · exact ⟨key, ht ▸ h.found⟩
    · have hne : k ≠ key := by
        rintro rfl
        rw [h.self] at hknows
        exact ht (Option.some.inj hknows).symm
      obtain ⟨o, ho⟩ := hI.complete t k (h.others k hne ▸ hknows)
      by_cases hkey : o = key
      · -- the session that was found has another TMGI now, and this one has the old one
        obtain ⟨s, hown, hs⟩ := hI.found hk ho
        refine absurd (Lapse.shared hs ?_ hknows) (hlapse t)
        rw [hown, hkey, h.self]
        exact fun heq => ht (Option.some.inj heq).symm
      · exact ⟨o, (h.kept t ht o).2 ⟨hkey, ho⟩⟩

theorem indexesTmgis_act (hk : (c.view []).Keyed) (hI : c.IndexesTmgis) {a : Action}
    (hlapse : ∀ t, ¬ c.Lapse a t) : (c.act a).IndexesTmgis := by
  cases course hk a with
  | settled h => exact indexesTmgis_settled hk hI hlapse h
  | named h => exact indexesTmgis_named hk hI hlapse h
  | unnamed hs hw hnone h =>
    rename_i s body bundled answer
    constructor
    · intro t k hindex
      rw [h.index] at hindex
      by_cases hkey : k = s.key
      · have hfound := (sessionByTmgi?_eq_some hk).2 ⟨hkey ▸ hindex, hs⟩
        exact absurd (Lapse.unnamed hfound hw hnone.1 hnone.2) (hlapse t)
      · rw [h.others k hkey]
        exact hI.sound t k hindex
    · intro t k hknows
      rw [h.index]
      obtain ⟨s', hs', ht'⟩ := h.self
      have hne : k ≠ s.key := by
        rintro rfl
        rw [tmgi?, hs', Option.bind_some, ht'] at hknows
        cases hknows
      exact hI.complete t k (h.others k hne ▸ hknows)

-- Whom the index leads to after an action, if not to a session that has just got the TMGI, it
-- has led to before.
theorem tmgiOwners_of_act (hk : (c.view []).Keyed) {a : Action} {t : Tmgi} {key o : SessionKey}
    (hc : c.tmgi? key = some t) (hindex : c.tmgiOwners.get? t = some key)
    (hlost : (c.act a).tmgi? key ≠ some t) (hafter : (c.act a).tmgi? o = some t)
    (hfound : (c.act a).tmgiOwners.get? t = some o) : o = key := by
  have hback : ∀ k, c.tmgiOwners.get? t = some k → k = key :=
    fun k hkey => Option.some.inj (hkey.symm.trans hindex)
  cases course hk a with
  | settled h =>
    rcases h o with ⟨-, hsame⟩ | ⟨hnone, -⟩
    · exact hback o ((hsame t).1 hfound)
    · rw [hnone] at hafter
      cases hafter
  | named h =>
    rename_i named tmgi
    by_cases ht : t = tmgi
    · -- then it is the session that has lost the TMGI which has got it
      by_cases hkey : key = named
      · rw [hkey, h.self, ht] at hlost
        exact absurd rfl hlost
      · rw [h.others key hkey] at hlost
        exact absurd hc hlost
    · exact hback o ((h.kept t ht o).1 hfound).2
  | unnamed _ _ _ h =>
    rw [h.index] at hfound
    exact hback o hfound

theorem not_findsByTmgi_of_lapse (hk : (c.view []).Keyed) {a : Action}
    (hk' : ((c.act a).view []).Keyed) (hc : c.FindsByTmgi) {t : Tmgi} (h : c.Lapse a t) :
    ¬ (c.act a).FindsByTmgi := by
  intro hc'
  cases h with
  | unnamed hfound hwaits hasked hanswered =>
    rename_i s body bundled answer
    obtain ⟨hindex, hs⟩ := (sessionByTmgi?_eq_some hk).1 hfound
    have hnone : (s.created body bundled answer).1.identity.tmgi = none :=
      (tmgi_withAllocated body answer.tmgi).2 ⟨hasked, hanswered⟩
    have hunnamed := unnamed_settle c hnone
    rw [act_created hs hwaits answer] at hc'
    -- the index leads to the session still
    have hstill : (c.settle (s.created body bundled answer).1).sessionByTmgi? t =
        some (s.created body bundled answer).1 := by
      rw [sessionByTmgi?, hunnamed.index, hindex, Option.bind_some]
      exact session?_settle c (s.created body bundled answer).1
    have hacknowledged := hc'.acknowledged t _ hstill
    rw [hnone] at hacknowledged
    cases hacknowledged
  | shared hfound hlost hother =>
    rename_i s key
    obtain ⟨hindex, hs⟩ := (sessionByTmgi?_eq_some hk).1 hfound
    have hknown : c.tmgi? s.key = some t := tmgi?_eq_some.2 ⟨s, hs, hc.acknowledged t s hfound⟩
    -- some session is found after the action, and it is not this one
    obtain ⟨s', hs'⟩ :=
      Option.isSome_iff_exists.1 ((hc'.found t).2 ⟨key, tmgi?_eq_some.1 hother⟩)
    obtain ⟨hindex', hget'⟩ := (sessionByTmgi?_eq_some hk').1 hs'
    have hafter : (c.act a).tmgi? s'.key = some t :=
      tmgi?_eq_some.2 ⟨s', hget', hc'.acknowledged t s' hs'⟩
    rw [tmgiOwners_of_act hk hknown hindex hlost hafter hindex'] at hafter
    exact hlost hafter

end Context

/-! ## 2. Runs -/

namespace World

theorem indexesTmgis_run (config : ClientConfig) {actions : List Action}
    (hlapse : Throughout (fun w a => ∀ t, ¬ w.context.Lapse a t) { context := { config } }
      actions) :
    (run config actions).context.IndexesTmgis := by
  induction actions using List.reverseRecOn with
  | nil =>
    constructor
    · intro t key h
      simp [run, acts] at h
    · intro t key h
      simp [run, acts, Context.tmgi?, Context.session?] at h
  | append_singleton actions a ih =>
    obtain ⟨hbefore, hlast, -⟩ := throughout_append.1 hlapse
    rw [run_snoc]
    exact Context.indexesTmgis_act (keyed_context config actions) (ih hbefore) hlast

end World

/-- **Sessions are found by TMGI as they should be throughout a run exactly if no look-up
lapses.** -/
theorem findsByTmgi_iff_no_lapse (config : ClientConfig) (actions : List Action) :
    (∀ before, before <+: actions → (World.run config before).context.FindsByTmgi) ↔
      World.Throughout (fun w a => ∀ tmgi, ¬ w.context.Lapse a tmgi) { context := { config } }
        actions := by
  constructor
  · intro h
    induction actions using List.reverseRecOn with
    | nil => trivial
    | append_singleton actions a ih =>
      have hbefore := h actions (List.prefix_append actions [a])
      have hafter := h (actions ++ [a]) List.prefix_rfl
      have hkeyed := World.keyed_context config (actions ++ [a])
      rw [World.run_snoc] at hafter hkeyed
      refine World.throughout_append.2 ⟨ih fun before hstart =>
        h before (hstart.trans (List.prefix_append actions [a])), fun t hlapse => ?_, trivial⟩
      exact Context.not_findsByTmgi_of_lapse (World.keyed_context config actions) hkeyed hbefore
        hlapse hafter
  · rintro hlapse before ⟨after, rfl⟩
    have hindex := World.indexesTmgis_run config (World.throughout_append.1 hlapse).1
    exact hindex.findsByTmgi (World.keyed_context config before)

/-! ### A session that is created again without its TMGI -/

def lapsedTmgi : Tmgi := ⟨"0000AB", ⟨"001", "01"⟩⟩

/-- A session is registered with a TMGI; then it takes an SSM instead and is created again. -/
def renamed : List Action :=
  [.newSession, .changeSession 1 (.tmgi (some lapsedTmgi)), .push 1,
    .event (.createResult 1 (.ok { resourceId := "a" })),
    .changeSession 1 (.tmgi none),
    .changeSession 1
      (.ssm (some ⟨.v4 ⟨10, 0, 0, 1⟩, .v4 ⟨232, 1, 1, 1⟩, by decide, by decide⟩)), .push 1]

/-- The session is still found by the TMGI. -/
theorem not_findsByTmgi_renamed :
    ¬ ∀ before, before <+: renamed ++ [.event (.createResult 1 (.ok { resourceId := "b" }))] →
      (World.run {} before).context.FindsByTmgi := by
  rw [findsByTmgi_iff_no_lapse, World.throughout_append]
  rintro ⟨-, hlast, -⟩
  let s := ((World.run {} renamed).context.sessionByTmgi? lapsedTmgi).get rfl
  have hfound : (World.run {} renamed).context.sessionByTmgi? lapsedTmgi = some s :=
    (Option.some_get _).symm
  have hlapse : (World.run {} renamed).context.Lapse
      (.event (.createResult s.key (.ok { resourceId := "b" }))) lapsedTmgi :=
    .unnamed hfound rfl rfl rfl
  exact hlast lapsedTmgi hlapse

end MbsClient
