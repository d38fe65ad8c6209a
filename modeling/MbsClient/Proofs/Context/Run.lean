import MbsClient.Context.Transport

/-!
# Runs — operations and events in any order

A run starts from an empty context. An operation that fails leaves the context as it is. What a
transport takes is kept in the world, so that everything ever emitted can be spoken of.
-/

namespace MbsClient

/-- An operation of the application, or something the transport comes back with. -/
inductive Action where
  | newSession
  | watchSession (key : SessionKey)
  | changeSession (key : SessionKey) (change : SessionChange)
  | deleteSession (key : SessionKey)
  | addSubscription (session : SessionKey) (data : MbsSessionSubscription)
  | updateSubscription (key : SubscriptionKey) (changes : List SubscriptionChange)
  | removeSubscription (key : SubscriptionKey)
  | transferSubscription (key : SubscriptionKey) (target : SessionKey)
  | push (key : SessionKey)
  | pushAll
  | close
  | takeIntents
  | event (e : TransportEvent)

namespace Context

/-- The context after an action. -/
def act (c : Context) : Action → Context
  | .newSession => (c.newSession.map Prod.snd).toOption.getD c
  | .watchSession key => (c.watchSession key).toOption.getD c
  | .changeSession key change => (c.changeSession key change).toOption.getD c
  | .deleteSession key => (c.deleteSession key).toOption.getD c
  | .addSubscription session data => ((c.addSubscription session data).map Prod.snd).toOption.getD c
  | .updateSubscription key changes => (c.updateSubscription key changes).toOption.getD c
  | .removeSubscription key => (c.removeSubscription key).toOption.getD c
  | .transferSubscription key target => (c.transferSubscription key target).toOption.getD c
  | .push key => (c.push key).toOption.getD c
  | .pushAll => c.pushAll
  | .close => c.close
  | .takeIntents => c.takeIntents.2
  | .event e => (c.handle e).1

end Context

/-- A context, and the intents that transports have taken from it. -/
structure World where
  context : Context
  taken : List Intent := []

namespace World

/-- All intents so far, oldest first. -/
def emitted (w : World) : List Intent := w.taken ++ w.context.outbox

def act (w : World) (a : Action) : World where
  context := w.context.act a
  taken :=
    match a with
    | .takeIntents => w.taken ++ w.context.takeIntents.1
    | _ => w.taken

/-- The world after some actions. -/
def acts (w : World) (actions : List Action) : World := actions.foldl act w

/-- The world after a run from the start. -/
def run (config : ClientConfig) (actions : List Action) : World :=
  acts { context := { config } } actions

/-! ## What is noted along a run -/

/-- What is noted at each action, in the world that the action finds. -/
def along {α : Type} (note : World → Action → List α) (w : World) : List Action → List α
  | [] => []
  | a :: actions => note w a ++ along note (w.act a) actions

theorem acts_append (w : World) (before after : List Action) :
    w.acts (before ++ after) = (w.acts before).acts after :=
  List.foldl_append

theorem run_snoc (config : ClientConfig) (actions : List Action) (a : Action) :
    run config (actions ++ [a]) = (run config actions).act a :=
  acts_append _ actions [a]

theorem along_append {α : Type} (note : World → Action → List α) (w : World)
    (before after : List Action) :
    along note w (before ++ after) = along note w before ++ along note (w.acts before) after := by
  induction before generalizing w with
  | nil => rfl
  | cons a before ih =>
    rw [List.cons_append, along, along, ih, List.append_assoc]
    rfl

theorem mem_along {α : Type} {note : World → Action → List α} {w : World} {actions : List Action}
    {x : α} : x ∈ along note w actions ↔
      ∃ before a after, actions = before ++ a :: after ∧ x ∈ note (w.acts before) a := by
  induction actions generalizing w with
  | nil => simp [along]
  | cons b actions ih =>
    rw [along, List.mem_append, ih]
    constructor
    · rintro (h | ⟨before, a, after, rfl, h⟩)
      · exact ⟨[], b, actions, rfl, h⟩
      · exact ⟨b :: before, a, after, rfl, h⟩
    · rintro ⟨before, a, after, heq, h⟩
      cases before with
      | nil =>
        obtain ⟨rfl, rfl⟩ := List.cons.inj heq
        exact .inl h
      | cons c before =>
        obtain ⟨rfl, rfl⟩ := List.cons.inj heq
        exact .inr ⟨before, a, after, rfl, h⟩

/-- What holds at each action, in the world that the action finds. -/
def Throughout (P : World → Action → Prop) (w : World) : List Action → Prop
  | [] => True
  | a :: actions => P w a ∧ Throughout P (w.act a) actions

theorem throughout_append {P : World → Action → Prop} {w : World} {before after : List Action} :
    Throughout P w (before ++ after) ↔
      Throughout P w before ∧ Throughout P (w.acts before) after := by
  induction before generalizing w with
  | nil => exact ⟨fun h => ⟨trivial, h⟩, fun h => h.2⟩
  | cons a before ih =>
    rw [List.cons_append, Throughout, Throughout, ih, and_assoc]
    rfl

-- What holds at an action exactly if nothing is noted there.
theorem throughout_iff_along {α : Type} {P : World → Action → Prop}
    {note : World → Action → List α} {w : World} {actions : List Action}
    (h : ∀ before a after, actions = before ++ a :: after →
      (P (w.acts before) a ↔ note (w.acts before) a = [])) :
    Throughout P w actions ↔ along note w actions = [] := by
  induction actions generalizing w with
  | nil => exact ⟨fun _ => rfl, fun _ => trivial⟩
  | cons a actions ih =>
    have hfirst : P w a ↔ note w a = [] := h [] a actions rfl
    have hrest : Throughout P (w.act a) actions ↔ along note (w.act a) actions = [] := by
      refine ih fun before b after heq => ?_
      exact h (a :: before) b after (by rw [heq, List.cons_append])
    rw [Throughout, along, List.append_eq_nil_iff, hfirst, hrest]

end World

end MbsClient
