import MbsClient.Model.Walk
import MbsClient.Proofs.Patch.Walk

/-!
# Walks through the types of the model — placed at the cursor, and nothing else touched

The walk through each type follows its edits, from the values without parts up to sessions and
subscriptions. So a walk that starts anywhere records what it records at the top of a document, with
the pointer of the cursor in front (`walk_balanced`). Keys of maps have to be integers: a text may be
empty, and the pointer to what is under it at the top is that of the whole document.
-/

namespace MbsClient

open Number Patch Time Walk

/-! ## 1. Walks follow the edits -/

instance : Walked BitRate := ⟨follows_scalar⟩
instance : Walked ReservationPriority := ⟨follows_scalar⟩
instance : Walked Instant := ⟨follows_scalar⟩
instance : Walked Ssm := ⟨follows_scalar⟩
instance {k : IdentifierKind} : Walked (Identifier k) := ⟨follows_scalar⟩

instance : WalkedRecord PlmnId := ⟨by simp [RecordWalk.parts, Record.members]⟩
instance : WalkedRecord Tmgi := ⟨by simp [RecordWalk.parts, Record.members]⟩
instance : WalkedRecord MbsSessionId := ⟨by simp [RecordWalk.parts, Record.members]⟩
instance : WalkedRecord Tai := ⟨by simp [RecordWalk.parts, Record.members]⟩
instance : WalkedRecord Ncgi := ⟨by simp [RecordWalk.parts, Record.members]⟩
instance : WalkedRecord NcgiTai := ⟨by simp [RecordWalk.parts, Record.members]⟩
instance : WalkedRecord MbsServiceArea := ⟨by simp [RecordWalk.parts, Record.members]⟩

instance : WalkedRecord CivicAddress where
  follows := by
    refine List.forall₂_map_left_iff.2 (List.forall₂_map_right_iff.2 (List.forall₂_same.2 ?_))
    intro e _
    have hname : e.name ≠ "" := by cases e <;> decide
    exact follows_optional hname _

instance : WalkedRecord GeographicalCoordinates := ⟨by simp [RecordWalk.parts, Record.members]⟩
instance : WalkedRecord UncertaintyEllipse := ⟨by simp [RecordWalk.parts, Record.members]⟩
instance : WalkedRecord PointArea := ⟨by simp [RecordWalk.parts, Record.members]⟩
instance : WalkedRecord CircleArea := ⟨by simp [RecordWalk.parts, Record.members]⟩
instance : WalkedRecord EllipseArea := ⟨by simp [RecordWalk.parts, Record.members]⟩
instance : WalkedRecord PolygonArea := ⟨by simp [RecordWalk.parts, Record.members]⟩
instance : WalkedRecord AltitudeArea := ⟨by simp [RecordWalk.parts, Record.members]⟩
instance : WalkedRecord AltitudeEllipseArea := ⟨by simp [RecordWalk.parts, Record.members]⟩
instance : WalkedRecord ArcArea := ⟨by simp [RecordWalk.parts, Record.members]⟩

-- Areas of one shape are records; any other area takes the place of the whole.
instance : Walked GeographicArea where
  follows same old new := by
    cases old <;> cases new <;>
      first | exact follows_record same _ _ | exact .of_places (.put .replace _)

instance : WalkedRecord ExtMbsServiceArea := ⟨by simp [RecordWalk.parts, Record.members]⟩
instance : WalkedRecord Arp := ⟨by simp [RecordWalk.parts, Record.members]⟩
instance : WalkedRecord MbsQosReq := ⟨by simp [RecordWalk.parts, Record.members]⟩
instance : WalkedRecord MbsMediaInfo := ⟨by simp [RecordWalk.parts, Record.members]⟩
instance : WalkedRecord MbsMediaComp := ⟨by simp [RecordWalk.parts, Record.members]⟩
instance : WalkedRecord MbsServiceInfo := ⟨by simp [RecordWalk.parts, Record.members]⟩
instance : WalkedRecord MbsSession := ⟨by simp [RecordWalk.parts, Record.members]⟩
instance : WalkedRecord MbsSessionEvent := ⟨by simp [RecordWalk.parts, Record.members]⟩

instance : Walked MbsSessionEventMask where
  follows same old new := by
    obtain ⟨placed, hplaced, heq⟩ := follows_list false 0 old.events new.events
    exact ⟨placed, hplaced, fun _ => heq rfl⟩

instance : WalkedRecord MbsSessionSubscription := ⟨by simp [RecordWalk.parts, Record.members]⟩

/-! ## 2. Where a walk puts its steps -/

/-- The types of the model whose values are compared, and optional values, lists and maps with
integers for keys of such types. -/
inductive Modelled : (α : Type) → [Encode α] → [Diff α] → [Walk α] → Prop
  | bool : Modelled Bool
  | string : Modelled String
  | uint8 : Modelled UInt8
  | uint16 : Modelled UInt16
  | uint32 : Modelled UInt32
  | uint64 : Modelled UInt64
  | int32 : Modelled Int32
  | int64 : Modelled Int64
  | double : Modelled Double
  | single : Modelled Single
  | instant : Modelled Instant
  | bitRate : Modelled BitRate
  | identifier (k : IdentifierKind) : Modelled (Identifier k)
  | reservationPriority : Modelled ReservationPriority
  | mediaType : Modelled MediaType
  | preemptionCapability : Modelled PreemptionCapability
  | preemptionVulnerability : Modelled PreemptionVulnerability
  | sessionType : Modelled MbsSessionType
  | eventType : Modelled MbsSessionEventType
  | ssm : Modelled Ssm
  | plmnId : Modelled PlmnId
  | tmgi : Modelled Tmgi
  | sessionId : Modelled MbsSessionId
  | tai : Modelled Tai
  | ncgi : Modelled Ncgi
  | ncgiTai : Modelled NcgiTai
  | serviceArea : Modelled MbsServiceArea
  | civicAddress : Modelled CivicAddress
  | coordinates : Modelled GeographicalCoordinates
  | ellipse : Modelled UncertaintyEllipse
  | geographicArea : Modelled GeographicArea
  | extServiceArea : Modelled ExtMbsServiceArea
  | arp : Modelled Arp
  | qosReq : Modelled MbsQosReq
  | mediaInfo : Modelled MbsMediaInfo
  | mediaComp : Modelled MbsMediaComp
  | serviceInfo : Modelled MbsServiceInfo
  | session : Modelled MbsSession
  | event : Modelled MbsSessionEvent
  | eventMask : Modelled MbsSessionEventMask
  | subscription : Modelled MbsSessionSubscription
  | option {α : Type} [Encode α] [Diff α] [Walk α] : Modelled α → Modelled (Option α)
  | list {α : Type} [Encode α] [Diff α] [Walk α] [BEq α] : Modelled α → Modelled (List α)
  | map {κ α : Type} [MapKey κ] [IntegerKey κ] [Encode α] [Diff α] [Walk α] :
      Modelled α → Modelled (SortedMap κ α)

theorem Modelled.walked {α : Type} [Encode α] [Diff α] [Walk α] (h : Modelled α) : Walked α := by
  induction h with
  | option _ _ | list _ _ | map _ _ => infer_instance
  | _ => infer_instance

/-- **Walks are balanced, and their steps are placed at the cursor.** After a walk the cursor is
where it was. Behind the operations recorded before there are those that the walk records on a fresh
recorder, relocated: one on the whole document is on the pointer of the cursor, any other has that
pointer in front, and nothing changes for a cursor at the top. Of two objects the walk records the
edits between them. -/
theorem walk_balanced {α : Type} [Encode α] [Diff α] [Walk α] (h : Modelled α) (same : Bool)
    (old new : α) (r : Recorder) :
    (walk same old new r).cursor = r.cursor ∧
    (walk same old new r).operations =
      r.operations ++ (walk same old new {}).operations.map (Operation.relocate r.cursor) ∧
    walk false old new r = r.compare old new := by
  have := h.walked
  obtain ⟨placed, hpaths, hnote⟩ := exists_note same old new
  refine ⟨?_, ?_, walk_eq_compare old new r⟩
  · rw [hnote]
    rfl
  · rw [hnote, hnote, Recorder.operations_note_fresh, Recorder.operations_note r hpaths]

/-- Components of which one gets another reference, one goes and one comes. -/
def componentsBefore : SortedMap UInt32 MbsMediaComp :=
  .ofList [(1, { mbsMedCompNum := 1, mbsFlowDescs := ["a", "b"], qosRef := some "gold" }),
    (10, { mbsMedCompNum := 10 })]

def componentsAfter : SortedMap UInt32 MbsMediaComp :=
  .ofList [(1, { mbsMedCompNum := 1, mbsFlowDescs := ["b"], qosRef := some "tin/lead" }),
    (2, { mbsMedCompNum := 2 })]

/-- A recorder at the components of a session, with a step recorded before. -/
def atComponents : Recorder :=
  { cursor := ["mbsServInfo", "mbsMediaComps"], recorded := [.remove ["serviceType"]] }

theorem walk_balanced_components :
    Modelled (SortedMap UInt32 MbsMediaComp) ∧
    (walk false componentsBefore componentsAfter atComponents).cursor = atComponents.cursor ∧
    (walk false componentsBefore componentsAfter atComponents).operations =
      atComponents.operations ++
        (walk false componentsBefore componentsAfter {}).operations.map
          (Operation.relocate atComponents.cursor) ∧
    ((walk false componentsBefore componentsAfter atComponents).operations.map Operation.text) =
      ["remove /serviceType",
        "remove /mbsServInfo/mbsMediaComps/1/mbsFlowDescs/0",
        "replace /mbsServInfo/mbsMediaComps/1/qosRef \"tin/lead\"",
        "add /mbsServInfo/mbsMediaComps/2 \x7b\"mbsMedCompNum\":2\x7d",
        "remove /mbsServInfo/mbsMediaComps/10"] ∧
    (walk false componentsBefore componentsAfter atComponents) =
      atComponents.compare componentsBefore componentsAfter := by
  have hmap : Modelled (SortedMap UInt32 MbsMediaComp) := .map .mediaComp
  have hwalk := walk_balanced hmap false componentsBefore componentsAfter atComponents
  exact ⟨hmap, hwalk.1, hwalk.2.1, by rfl, hwalk.2.2⟩

end MbsClient
