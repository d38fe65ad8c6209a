import MbsClient.Model.Subscription
import MbsClient.Proofs.Json.Same
import MbsClient.Proofs.Patch.Unchanged

/-!
# Unchanged records — sessions and subscriptions have no edits to themselves

Of the types of the model only geographic areas hold numbers of floating point, and with them the
sessions that have such an area. They have to be free of NaN.
-/

namespace MbsClient

open Diff Number Time

/-! ## 1. Types without numbers of floating point -/

theorem edits_scalar_self {α : Type} [Encode α] [BEq α] [ReflBEq α] (a : α) : scalar a a = [] :=
  scalar_self (BEq.refl a)

instance : Steady String := ⟨edits_scalar_self⟩
instance : Steady UInt8 := ⟨edits_scalar_self⟩
instance : Steady UInt16 := ⟨edits_scalar_self⟩
instance : Steady UInt32 := ⟨edits_scalar_self⟩
instance : Steady Int32 := ⟨edits_scalar_self⟩
instance : Steady BitRate := ⟨edits_scalar_self⟩
instance : Steady ReservationPriority := ⟨edits_scalar_self⟩
instance : Steady Instant := ⟨edits_scalar_self⟩
instance : Steady Ssm := ⟨edits_scalar_self⟩
instance {k : IdentifierKind} : Steady (Identifier k) := ⟨edits_scalar_self⟩
instance (priority := low) {α : Type} [Constant α] [BEq α] [ReflBEq α] : Steady α :=
  ⟨edits_scalar_self⟩

instance : SteadyRecord PlmnId := ⟨by simp [Record.members]⟩
instance : SteadyRecord Tmgi := ⟨by simp [Record.members]⟩
instance : SteadyRecord MbsSessionId := ⟨by simp [Record.members]⟩
instance : SteadyRecord Arp := ⟨by simp [Record.members]⟩
instance : SteadyRecord MbsQosReq := ⟨by simp [Record.members]⟩
instance : SteadyRecord MbsMediaInfo := ⟨by simp [Record.members]⟩
instance : SteadyRecord MbsMediaComp := ⟨by simp [Record.members]⟩
instance : SteadyRecord MbsServiceInfo := ⟨by simp [Record.members]⟩
instance : SteadyRecord Tai := ⟨by simp [Record.members]⟩
instance : SteadyRecord Ncgi := ⟨by simp [Record.members]⟩
instance : SteadyRecord NcgiTai := ⟨by simp [Record.members]⟩
instance : SteadyRecord MbsServiceArea := ⟨by simp [Record.members]⟩
instance : SteadyRecord MbsSessionEvent := ⟨by simp [Record.members]⟩

instance : SteadyRecord CivicAddress where
  edits_self m hm r := by
    obtain ⟨e, -, rfl⟩ := List.mem_map.1 hm
    exact Member.edits_optional_self e.name _ r

instance : Steady MbsSessionEventMask := ⟨fun m => list_self (fun a _ => by simp) 0⟩

instance : SteadyRecord MbsSessionSubscription := ⟨by simp [Record.members]⟩

/-! ## 2. Values free of NaN -/

namespace Number

theorem Double.beq_self {x : Double} (h : x.isNaN = false) : (x == x) = true := by
  apply sameNumber_self
  intro hn
  have hunpack : x.unpack = .nan := hn
  simp [isNaN, hunpack] at h

theorem Double.edits_self {x : Double} (h : x.isNaN = false) : edits x x = [] :=
  scalar_self (beq_self h)

def Single.isNaN (x : Single) : Bool :=
  match x.unpack with
  | .nan => true
  | _ => false

theorem Single.beq_self {x : Single} (h : x.isNaN = false) : (x == x) = true := by
  apply sameNumber_self
  intro hn
  have hunpack : x.unpack = .nan := hn
  simp [isNaN, hunpack] at h

theorem Single.edits_self {x : Single} (h : x.isNaN = false) : edits x x = [] :=
  scalar_self (beq_self h)

end Number

open Member

def GeographicalCoordinates.NoNaN (c : GeographicalCoordinates) : Prop :=
  c.lon.isNaN = false ∧ c.lat.isNaN = false

theorem GeographicalCoordinates.edits_self {c : GeographicalCoordinates} (h : c.NoNaN) :
    edits c c = [] := by
  apply differences_self
  simp only [Record.members, List.forall_mem_cons]
  exact ⟨edits_always_self_of _ (Double.edits_self h.1),
    edits_always_self_of _ (Double.edits_self h.2), by simp⟩

def UncertaintyEllipse.NoNaN (e : UncertaintyEllipse) : Prop :=
  e.semiMajor.isNaN = false ∧ e.semiMinor.isNaN = false

theorem UncertaintyEllipse.edits_self {e : UncertaintyEllipse} (h : e.NoNaN) :
    edits e e = [] := by
  apply differences_self
  simp only [Record.members, List.forall_mem_cons]
  exact ⟨edits_always_self_of _ (Single.edits_self h.1),
    edits_always_self_of _ (Single.edits_self h.2), by simp⟩

def GeographicArea.NoNaN : GeographicArea → Prop
  | .point a => a.point.NoNaN
  | .circle a => a.point.NoNaN ∧ a.uncertainty.isNaN = false
  | .ellipse a => a.point.NoNaN ∧ a.uncertaintyEllipse.NoNaN
  | .polygon a => ∀ p ∈ a.pointList, p.NoNaN
  | .altitude a => a.point.NoNaN ∧ a.altitude.isNaN = false
  | .altitudeEllipse a => a.point.NoNaN ∧ a.altitude.isNaN = false ∧
      a.uncertaintyEllipse.NoNaN ∧ a.uncertaintyAltitude.isNaN = false
  | .arc a => a.point.NoNaN ∧ a.uncertaintyRadius.isNaN = false

theorem GeographicArea.edits_self {a : GeographicArea} (h : a.NoNaN) : edits a a = [] := by
  have hpoint : ∀ {p : GeographicalCoordinates}, p.NoNaN → edits p p = [] :=
    GeographicalCoordinates.edits_self
  cases a with
  | point a =>
    apply differences_self
    simp only [Record.members, List.forall_mem_cons]
    exact ⟨edits_always_self_of _ (hpoint h), by simp⟩
  | circle a =>
    apply differences_self
    simp only [Record.members, List.forall_mem_cons]
    exact ⟨edits_always_self_of _ (hpoint h.1), edits_always_self_of _ (Single.edits_self h.2),
      by simp⟩
  | ellipse a =>
    apply differences_self
    simp only [Record.members, List.forall_mem_cons]
    exact ⟨edits_always_self_of _ (hpoint h.1),
      edits_always_self_of _ (UncertaintyEllipse.edits_self h.2), by simp⟩
  | polygon a =>
    apply differences_self
    simp only [Record.members, List.forall_mem_cons]
    exact ⟨edits_always_self_of _ (list_self (fun p hp => hpoint (h p hp)) 0), by simp⟩
  | altitude a =>
    apply differences_self
    simp only [Record.members, List.forall_mem_cons]
    exact ⟨edits_always_self_of _ (hpoint h.1), edits_always_self_of _ (Double.edits_self h.2),
      by simp⟩
  | altitudeEllipse a =>
    apply differences_self
    simp only [Record.members, List.forall_mem_cons]
    exact ⟨edits_always_self_of _ (hpoint h.1), edits_always_self_of _ (Double.edits_self h.2.1),
      edits_always_self_of _ (UncertaintyEllipse.edits_self h.2.2.1),
      edits_always_self_of _ (Single.edits_self h.2.2.2), by simp⟩
  | arc a =>
    apply differences_self
    simp only [Record.members, List.forall_mem_cons]
    refine ⟨edits_always_self_of _ (hpoint h.1), by simp,
      edits_always_self_of _ (Single.edits_self h.2), by simp⟩

def ExtMbsServiceArea.NoNaN (a : ExtMbsServiceArea) : Prop := ∀ g ∈ a.geographicAreaList, g.NoNaN

theorem ExtMbsServiceArea.edits_self {a : ExtMbsServiceArea} (h : a.NoNaN) : edits a a = [] := by
  apply differences_self
  simp only [Record.members, List.forall_mem_cons]
  exact ⟨by simp, edits_sequence_self_of _ fun g hg => GeographicArea.edits_self (h g hg), by simp⟩

def MbsSession.NoNaN (r : MbsSession) : Prop := ∀ a ∈ r.extMbsServiceArea, a.NoNaN

theorem MbsSession.edits_self {r : MbsSession} (h : r.NoNaN) : edits r r = [] := by
  apply differences_self
  simp only [Record.members, List.forall_mem_cons]
  refine ⟨by simp, by simp, by simp, by simp, by simp, by simp, by simp, ?_, by simp⟩
  exact edits_optional_self_of _ fun a ha => ExtMbsServiceArea.edits_self (h a ha)

end MbsClient
