import MbsClient.Proofs.Context.Effect

/-!
# Independence — steps of different sessions can be interchanged

Two steps of different sessions lead to the same context in either order, and each sends the same;
only the outbox shows which came first. The one exception is the index of TMGIs, where the last of
two sessions that are named alike is found.
-/

namespace MbsClient

namespace Context

variable {c : Context} {a b : SessionKey} {first second : Action}

/-- What two steps come to in either order, if they send these requests. -/
structure Interchange (c : Context) (first second : Action) (sent sent' : List Intent) : Prop where
  alone : (c.act first).outbox = c.outbox ++ sent
  alone' : (c.act second).outbox = c.outbox ++ sent'
  forth : ((c.act first).act second).outbox = c.outbox ++ sent ++ sent'
  back : ((c.act second).act first).outbox = c.outbox ++ sent' ++ sent
  /-- The order shows nowhere but in the outbox and the index of TMGIs. -/
  rest : (c.act second).act first =
    { (c.act first).act second with
      outbox := ((c.act second).act first).outbox
      tmgiOwners := ((c.act second).act first).tmgiOwners }

-- Neither step changes what the other one's session sees.
theorem exists_interchange (hk : (c.view []).Keyed) (hI : c.Indexed) (hne : a ≠ b)
    (hfirst : first.Concerns c a) (hsecond : second.Concerns c b) :
    ∃ sent sent', c.Interchange first second sent sent' ∧
      (((c.act second).act first).tmgiOwners = ((c.act first).act second).tmgiOwners ↔
        ¬ ∃ tmgi, c.Names a first tmgi ∧ c.Names b second tmgi) := by
  obtain ⟨e, hname, he⟩ := hasEffect hk hI hfirst
  obtain ⟨f, hname', hf⟩ := hasEffect hk hI hsecond
  have halone : c.act first = c.affect a e := he c (.refl c a)
  have halone' : c.act second = c.affect b f := hf c (.refl c b)
  have hforth : (c.act first).act second = (c.affect a e).affect b f := by
    rw [halone, hf _ (alike_affect c hne.symm e)]
  have hback : (c.act second).act first = (c.affect b f).affect a e := by
    rw [halone', he _ (alike_affect c hne f)]
  refine ⟨e.intents, f.intents, ⟨?_, ?_, ?_, ?_, ?_⟩, ?_⟩
  · rw [halone]
    rfl
  · rw [halone']
    rfl
  · rw [hforth]
    rfl
  · rw [hback]
    rfl
  · rw [hforth, hback]
    exact affect_affect c hne e f
  · have hclash : (∃ tmgi, c.Names a first tmgi ∧ c.Names b second tmgi) ↔
        e.naming.Clashes f.naming :=
      exists_congr fun tmgi => and_congr (hname tmgi).symm (hname' tmgi).symm
    rw [hforth, hback, hclash]
    constructor
    · intro hsame h
      exact Naming.enter_ne hne h c.tmgiOwners hsame.symm
    · intro h
      exact (Naming.enter_comm hne h c.tmgiOwners).symm

end Context

/-- **Sessions do not interfere.** After any run, steps of two different sessions send the same in
either order, one behind the other, and lead to the same sessions, index of owners and counters.
They lead to the same context but for the order in the outbox exactly if they are not both answers
to creations that are waited for and leave their sessions with one TMGI. -/
theorem World.sessions_independent (config : ClientConfig) (actions : List Action)
    {a b : SessionKey} (hne : a ≠ b) {first second : Action}
    (hfirst : first.Concerns (run config actions).context a)
    (hsecond : second.Concerns (run config actions).context b) :
    let c := (run config actions).context
    ∃ sent sent', c.Interchange first second sent sent' ∧
      ((c.act second).act first =
          { (c.act first).act second with outbox := c.outbox ++ sent' ++ sent } ↔
        ¬ ∃ tmgi, c.Names a first tmgi ∧ c.Names b second tmgi) := by
  intro c
  obtain ⟨sent, sent', h, hnames⟩ := Context.exists_interchange (keyed_context config actions)
    (indexed_run config actions) hne hfirst hsecond
  refine ⟨sent, sent', h, Iff.trans ⟨fun hsame => ?_, fun hindex => ?_⟩ hnames⟩
  · exact (congrArg Context.tmgiOwners hsame).trans rfl
  · rw [h.rest, h.back, hindex]

/-- One session waits for its creation; another is deleted that is registered with a
subscription. -/
def oneComesOneGoes : List Action :=
  [.newSession, .newSession, .addSubscription 2 {}, .push 1, .push 2,
    .event (.createResult 2 (.ok { resourceId := "r2", subscriptionId := some "s2" })),
    .deleteSession 2]

/-- The answer names the first session and the push takes the second one down, in either order. -/
theorem sessions_independent_oneComesOneGoes :
    let c := (World.run {} oneComesOneGoes).context
    let answer := Action.event
      (.createResult 1 (.ok { resourceId := "r1", tmgi := some ⟨"0000AB", "001", "01"⟩ }))
    answer.Concerns c 1 ∧ (Action.push 2).Concerns c 2 ∧
      ∃ sent sent', c.Interchange answer (.push 2) sent sent' ∧
        (c.act (.push 2)).act answer =
          { (c.act answer).act (.push 2) with outbox := c.outbox ++ sent' ++ sent } := by
  intro c answer
  have hanswer : answer.Concerns c 1 := .answered rfl
  have hpush : (Action.push 2).Concerns c 2 := .pushed
  obtain ⟨sent, sent', h, hsame⟩ :=
    World.sessions_independent {} oneComesOneGoes (by decide) hanswer hpush
  refine ⟨hanswer, hpush, sent, sent', h, hsame.2 ?_⟩
  rintro ⟨tmgi, -, ⟨result, heq⟩, -⟩
  cases heq

end MbsClient
