import MbsClient.Model.Subscription
import MbsClient.Proofs.Patch.Lawful

/-!
# Patch correctness — the patch between two values turns one document into the other

All types of the model are lawful but for media components: a component is compared source by
source and shown by its effective source, so with more than one source the two can disagree.
-/

namespace MbsClient

open Diff Json Number Patch Time

/-! ## 1. Values without parts -/

section

variable {k : IdentifierKind}

instance : SelfSame (Identifier k) := ⟨fun i => same_string i.text⟩
instance : LawfulDiff (Identifier k) := ⟨turns_scalar_of_lawful⟩

end

instance : SelfSame BitRate := ⟨fun r => same_string r.text⟩
instance : LawfulDiff BitRate := ⟨turns_scalar_of_lawful⟩
instance : SelfSame ReservationPriority := ⟨fun p => same_string p.text⟩
instance : LawfulDiff ReservationPriority := ⟨turns_scalar_of_lawful⟩
instance : SelfSame Instant := ⟨fun t => same_string t.text⟩
instance : LawfulDiff Instant := ⟨turns_scalar_of_lawful⟩

instance : SelfSame Net.Ipv4 := ⟨fun ip => same_string ip.text⟩
instance : SelfSame Net.Ipv6 := ⟨fun ip => same_string ip.text⟩

theorem same_encodeAddress (a : Net.Address) : (encodeAddress a == encodeAddress a) = true := by
  cases a with
  | v4 ip => exact same_record (by simp) (by simp [same_self])
  | v6 ip => exact same_record (by simp) (by simp [same_self])

instance : SelfSame Ssm where
  same_self s := same_record (by simp) (by simp [same_encodeAddress])

instance : LawfulDiff Ssm := ⟨turns_scalar_of_lawful⟩

/-! ## 2. Records -/

section

open Member

instance : LawfulRecord PlmnId where
  nodup_names := by decide
  lawful := by simp [Record.members]

instance : LawfulRecord Tmgi where
  nodup_names := by decide
  lawful := by simp [Record.members]

instance : LawfulRecord MbsSessionId where
  nodup_names := by decide
  lawful := by simp [Record.members]

instance : LawfulRecord Arp where
  nodup_names := by decide
  lawful := by simp [Record.members]

instance : LawfulRecord MbsQosReq where
  nodup_names := by decide
  lawful := by simp [Record.members]

instance : LawfulRecord MbsMediaInfo where
  nodup_names := by decide
  lawful := by simp [Record.members]

instance : LawfulRecord Tai where
  nodup_names := by decide
  lawful := by simp [Record.members]

instance : LawfulRecord Ncgi where
  nodup_names := by decide
  lawful := by simp [Record.members]

instance : LawfulRecord NcgiTai where
  nodup_names := by decide
  lawful := by simp [Record.members]

instance : LawfulRecord MbsServiceArea where
  nodup_names := by decide
  lawful := by simp [Record.members]

instance : LawfulRecord CivicAddress where
  nodup_names := by decide
  lawful := by
    intro m hm
    obtain ⟨e, -, rfl⟩ := List.mem_map.1 hm
    exact lawful_optional e.name _

instance : LawfulRecord GeographicalCoordinates where
  nodup_names := by decide
  lawful := by simp [Record.members]

instance : LawfulRecord UncertaintyEllipse where
  nodup_names := by decide
  lawful := by simp [Record.members]

instance : LawfulRecord PointArea where
  nodup_names := by decide
  lawful := by simp [Record.members]

instance : LawfulRecord CircleArea where
  nodup_names := by decide
  lawful := by simp [Record.members]

instance : LawfulRecord EllipseArea where
  nodup_names := by decide
  lawful := by simp [Record.members]

instance : LawfulRecord PolygonArea where
  nodup_names := by decide
  lawful := by simp [Record.members]

instance : LawfulRecord AltitudeArea where
  nodup_names := by decide
  lawful := by simp [Record.members]

instance : LawfulRecord AltitudeEllipseArea where
  nodup_names := by decide
  lawful := by simp [Record.members]

instance : LawfulRecord ArcArea where
  nodup_names := by decide
  lawful := by simp [Record.members]

-- Areas of one shape differ in their members only.
theorem turns_shape {R : Type} [Record R] [LawfulRecord R] (shape : String)
    (hn : ("shape" :: (Record.members : List (Member R)).map name).Nodup) (old new : R) :
    Turns (edits old new)
      (.record (("shape", some (.string shape)) :: document Record.members old))
      (.record (("shape", some (.string shape)) :: document Record.members new)) := by
  refine turns_differences [("shape", some (.string shape))] hn ?_
    fun m hm => (LawfulRecord.lawful m hm).fills old new
  intro e he
  rw [List.mem_singleton.1 he]
  exact .some (same_string shape)

theorem same_shape {R : Type} [Record R] [LawfulRecord R] (shape : String)
    (hn : ("shape" :: (Record.members : List (Member R)).map name).Nodup) (a : R) :
    (Json.record (("shape", some (.string shape)) :: document Record.members a) ==
      Json.record (("shape", some (.string shape)) :: document Record.members a)) = true := by
  apply same_record
  · rw [List.map_cons, names_document]
    exact hn
  · intro e he
    rcases List.mem_cons.1 he with rfl | he
    · exact .some (same_string shape)
    · obtain ⟨m, hm, rfl⟩ := List.mem_map.1 he
      exact (LawfulRecord.lawful m hm).same_shown a

instance : SelfSame GeographicArea where
  same_self a := by
    cases a with
    | point a => exact same_shape "POINT" (by decide) a
    | circle a => exact same_shape "POINT_UNCERTAINTY_CIRCLE" (by decide) a
    | ellipse a => exact same_shape "POINT_UNCERTAINTY_ELLIPSE" (by decide) a
    | polygon a => exact same_shape "POLYGON" (by decide) a
    | altitude a => exact same_shape "POINT_ALTITUDE" (by decide) a
    | altitudeEllipse a => exact same_shape "POINT_ALTITUDE_UNCERTAINTY" (by decide) a
    | arc a => exact same_shape "ELLIPSOID_ARC" (by decide) a

instance : LawfulDiff GeographicArea where
  turns old new := by
    cases old <;> cases new
    case point.point a b => exact turns_shape "POINT" (by decide) a b
    case circle.circle a b => exact turns_shape "POINT_UNCERTAINTY_CIRCLE" (by decide) a b
    case ellipse.ellipse a b => exact turns_shape "POINT_UNCERTAINTY_ELLIPSE" (by decide) a b
    case polygon.polygon a b => exact turns_shape "POLYGON" (by decide) a b
    case altitude.altitude a b => exact turns_shape "POINT_ALTITUDE" (by decide) a b
    case altitudeEllipse.altitudeEllipse a b =>
      exact turns_shape "POINT_ALTITUDE_UNCERTAINTY" (by decide) a b
    case arc.arc a b => exact turns_shape "ELLIPSOID_ARC" (by decide) a b
    -- the areas left are of two shapes
    all_goals exact Turns.replace (same_self _)

instance : LawfulRecord ExtMbsServiceArea where
  nodup_names := by decide
  lawful := by simp [Record.members]

instance : LawfulRecord MbsSessionEvent where
  nodup_names := by decide
  lawful := by simp [Record.members]

instance : LawfulDiff MbsSessionEventMask where
  same_self m := same_self m.events
  turns _ _ := turns_list same_self fun a _ b _ => LawfulDiff.turns a b

instance : LawfulRecord MbsSessionSubscription where
  nodup_names := by decide
  lawful := by simp [Record.members]

/-! ## 3. Media components -/

namespace MbsMediaComp

/-- No more than one of the three sources of quality of service is set. -/
def AtMostOneQos (c : MbsMediaComp) : Prop :=
  c.mbsMediaInfo.isSome.toNat + c.qosRef.isSome.toNat + c.mbsQoSReq.isSome.toNat ≤ 1

instance (c : MbsMediaComp) : Decidable c.AtMostOneQos := inferInstanceAs (Decidable (_ ≤ _))

instance : SelfSame MbsMediaComp where
  same_self c := by
    apply same_document (by decide)
    simp [Record.members, (lawful_always _ _).same_shown, (lawful_sequence _ _).same_shown,
      (lawful_optional _ _).same_shown, same_hidden]

theorem turns {old new : MbsMediaComp} (hold : old.AtMostOneQos) (hnew : new.AtMostOneQos) :
    Turns (edits old new) (encode old) (encode new) := by
  have hqosRef : ∀ c : MbsMediaComp, c.AtMostOneQos → c.qosRef.isSome = true →
      c.mbsMediaInfo.isNone = true := by
    intro c hc href
    unfold AtMostOneQos at hc
    cases hinfo : c.mbsMediaInfo with
    | none => rfl
    | some info =>
      rw [hinfo, href] at hc
      simp only [Option.isSome_some, Bool.toNat_true] at hc
      omega
  have hqosReq : ∀ c : MbsMediaComp, c.AtMostOneQos → c.mbsQoSReq.isSome = true →
      (c.mbsMediaInfo.isNone && c.qosRef.isNone) = true := by
    intro c hc hreq
    unfold AtMostOneQos at hc
    cases hinfo : c.mbsMediaInfo <;> cases href : c.qosRef <;> simp [hinfo, href, hreq] at hc ⊢
  refine turns_differences [] (by decide) (by simp) ?_
  simp only [Record.members, List.forall_mem_cons]
  refine ⟨(lawful_always _ _).fills old new, (lawful_sequence _ _).fills old new,
    (lawful_optional _ _).fills old new, (lawful_optional _ _).fills old new, ?_, ?_, by simp⟩
  · exact fills_hidden _ (hqosRef old hold) (hqosRef new hnew) fun a b _ _ => LawfulDiff.turns a b
  · exact fills_hidden _ (hqosReq old hold) (hqosReq new hnew) fun a b _ _ => LawfulDiff.turns a b

end MbsMediaComp

namespace MbsServiceInfo

/-- Every component has at most one source. -/
def AtMostOneQos (s : MbsServiceInfo) : Prop := ∀ e ∈ s.mbsMediaComps.entries, e.2.AtMostOneQos

instance (s : MbsServiceInfo) : Decidable s.AtMostOneQos :=
  inferInstanceAs (Decidable (∀ e ∈ _, _))

instance : SelfSame MbsServiceInfo where
  same_self s := by
    apply same_document (by decide)
    simp only [Record.members, List.forall_mem_cons]
    exact ⟨.some (same_self s.mbsMediaComps), same_map _, same_map _, same_map _, by simp⟩

theorem turns {old new : MbsServiceInfo} (hold : old.AtMostOneQos) (hnew : new.AtMostOneQos) :
    Turns (edits old new) (encode old) (encode new) := by
  refine turns_differences [] (by decide) (by simp) ?_
  simp only [Record.members, List.forall_mem_cons]
  refine ⟨Fills.under ?_, (lawful_optional _ _).fills old new, (lawful_optional _ _).fills old new,
    (lawful_optional _ _).fills old new, by simp⟩
  apply turns_map name_injective_uint32 same_self
  intro k a b ha hb
  exact MbsMediaComp.turns (hold _ (Entries.mem_of_get? ha)) (hnew _ (Entries.mem_of_get? hb))

end MbsServiceInfo

/-! ## 4. Sessions and subscriptions -/

namespace MbsSession

/-- Every media component of the session has at most one source. -/
def AtMostOneQos (s : MbsSession) : Prop := ∀ info ∈ s.mbsServInfo, info.AtMostOneQos

instance (s : MbsSession) : Decidable s.AtMostOneQos :=
  inferInstanceAs (Decidable (∀ info ∈ _, _))

theorem fills {old new : MbsSession} (hold : old.AtMostOneQos) (hnew : new.AtMostOneQos) :
    ∀ m ∈ (Record.members : List (Member MbsSession)),
      Fills m.name (m.shown old) (m.shown new) (m.edits old new) := by
  simp only [Record.members, List.forall_mem_cons]
  refine ⟨(lawful_always _ _).fills old new, (lawful_flag _ _).fills old new,
    (lawful_always _ _).fills old new, (lawful_flag _ _).fills old new,
    (lawful_optional _ _).fills old new, (lawful_flag _ _).fills old new,
    (lawful_optional _ _).fills old new, (lawful_optional _ _).fills old new, ?_,
    (lawful_sequence _ _).fills old new, (lawful_optional _ _).fills old new,
    (lawful_optional _ _).fills old new, (lawful_optional _ _).fills old new, by simp⟩
  apply fills_optional
  intro a b ha hb
  exact MbsServiceInfo.turns (hold a ha) (hnew b hb)

end MbsSession

-- A patch whose edits have paths of their own does what its edits do.
theorem patch?_values {R : Type} [Record R] {old new : R}
    (hn : ((Record.members : List (Member R)).map name).Nodup)
    (hname : "" ∉ (Record.members : List (Member R)).map name)
    (h : ∀ m ∈ (Record.members : List (Member R)),
      Fills m.name (m.shown old) (m.shown new) (m.edits old new)) :
    ∃ doc, patch? (Diff.values old new) (encode old) = some doc ∧
      (doc == encode new) = true := by
  have hturns : Turns (edits old new) (encode old) (encode new) :=
    turns_differences [] hn (by simp) h
  obtain ⟨doc, hdoc, hsame⟩ := hturns.reaches
  have hpaths : ∀ e ∈ (edits old new : List Edit), e.path ≠ [""] :=
    fun e he => path_ne_root hname h he
  refine ⟨doc, ?_, hsame⟩
  show patch? ((edits old new).map Operation.ofEdit) (encode old) = some doc
  rw [patch?_ofEdit hpaths, hdoc]

/-- **Patch correctness.** The operations between two values, taken one after the other on the
document of the first, all succeed and end in the document of the second. -/
theorem patch_reaches_document :
    (∀ old new : MbsSession, old.AtMostOneQos → new.AtMostOneQos →
      ∃ doc, patch? (Diff.values old new) (encode old) = some doc ∧
        (doc == encode new) = true) ∧
    ∀ old new : MbsSessionSubscription,
      ∃ doc, patch? (Diff.values old new) (encode old) = some doc ∧
        (doc == encode new) = true :=
  ⟨fun _ _ hold hnew => patch?_values (by decide) (by decide) (MbsSession.fills hold hnew),
    fun old new => patch?_values (by decide) (by decide)
      fun m hm => (LawfulRecord.lawful m hm).fills old new⟩

/-- One component that takes its quality of service from a reference. -/
def referenced : MbsSession :=
  { mbsServInfo := some
      { mbsMediaComps := .ofList [(1, { mbsMedCompNum := 1, qosRef := some "gold" })] } }

/-- Two components that ask for it. -/
def requested : MbsSession :=
  { tmgiAllocReq := true
    mbsServInfo := some
      { mbsMediaComps := .ofList
          [(1, { mbsMedCompNum := 1, mbsFlowDescs := ["permit"],
                 mbsQoSReq := some { fiveQi := 9 } }),
            (2, { mbsMedCompNum := 2, mbsQoSReq := some { fiveQi := 5 } })] } }

theorem patch_reaches_requested :
    referenced.AtMostOneQos ∧ requested.AtMostOneQos ∧
      ∃ doc, patch? (Diff.values referenced requested) (encode referenced) = some doc ∧
        (doc == encode requested) = true := by
  have hold : referenced.AtMostOneQos := by decide
  have hnew : requested.AtMostOneQos := by decide
  exact ⟨hold, hnew, patch_reaches_document.1 referenced requested hold hnew⟩

end

end MbsClient
