import MbsClient.Proofs.Model.Telling
import MbsClient.Session.Change

/-!
# Empty differences — no edits exactly where nothing differs

There are no edits between sessions exactly if their documents are the same and their media
components agree source by source, hidden sources included. There are none between subscriptions
exactly if the two are equal.
-/

namespace MbsClient

open Diff Json Member Number Time

/-! ## 1. Media components -/

theorem isNone_eq_of_same {α : Type} [Encode α] {a? b? : Option α}
    (h : SameOption (a?.map encode) (b?.map encode)) : a?.isNone = b?.isNone := by
  cases a? <;> cases b? <;> cases h <;> rfl

namespace MbsMediaComp

/-- The components agree in the document of each source of quality of service, whether it is shown
or not. -/
structure SameSources (c d : MbsMediaComp) : Prop where
  mbsMediaInfo : SameOption (c.mbsMediaInfo.map encode) (d.mbsMediaInfo.map encode)
  qosRef : SameOption (c.qosRef.map encode) (d.qosRef.map encode)
  mbsQoSReq : SameOption (c.mbsQoSReq.map encode) (d.mbsQoSReq.map encode)

theorem edits_eq_nil {c d : MbsMediaComp} :
    edits c d = [] ↔ (encode c == encode d) = true ∧ c.SameSources d := by
  rw [edits_eq_nil_iff, same_encode_iff (by decide)]
  simp only [Record.members, List.forall_mem_cons, edits_hidden_eq_nil]
  constructor
  · rintro ⟨hnum, hflows, hprio, hinfo, href, hreq, -⟩
    have hinfo := (tells_optional _ _ c d).1 hinfo
    have hnoInfo : c.mbsMediaInfo.isNone = d.mbsMediaInfo.isNone := isNone_eq_of_same hinfo
    have hnoRef : c.qosRef.isNone = d.qosRef.isNone := isNone_eq_of_same href
    exact ⟨⟨(tells_always _ _ c d).1 hnum, (tells_sequence _ _ c d).1 hflows,
      (tells_optional _ _ c d).1 hprio, hinfo, same_shown_hidden _ hnoInfo href,
      same_shown_hidden _ (congrArg₂ _ hnoInfo hnoRef) hreq, by simp⟩, hinfo, href, hreq⟩
  · rintro ⟨⟨hnum, hflows, hprio, hinfo, -⟩, hsources⟩
    exact ⟨(tells_always _ _ c d).2 hnum, (tells_sequence _ _ c d).2 hflows,
      (tells_optional _ _ c d).2 hprio, (tells_optional _ _ c d).2 hinfo, hsources.qosRef,
      hsources.mbsQoSReq, by simp⟩

end MbsMediaComp

/-! ## 2. Sessions -/

namespace MbsServiceInfo

/-- Components that both records have under one number agree source by source. -/
def SameSources (old new : MbsServiceInfo) : Prop :=
  ∀ num, ∀ c ∈ old.mbsMediaComps.get? num, ∀ d ∈ new.mbsMediaComps.get? num, c.SameSources d

theorem edits_eq_nil {old new : MbsServiceInfo} :
    edits old new = [] ↔ (encode old == encode new) = true ∧ old.SameSources new := by
  have hcomps : edits old.mbsMediaComps new.mbsMediaComps = [] ↔
      (encode old.mbsMediaComps == encode new.mbsMediaComps) = true ∧ old.SameSources new := by
    rw [same_map_iff name_injective_uint32]
    refine map_eq_nil.trans ((forall_congr' fun num => ?_).trans forall_and)
    exact presence_eq_nil_iff fun c _ d _ => MbsMediaComp.edits_eq_nil
  have hmember : (Member.always "mbsMediaComps" mbsMediaComps).edits old new = [] ↔
      SameOption (some (encode old.mbsMediaComps)) (some (encode new.mbsMediaComps)) ∧
        old.SameSources new :=
    under_eq_nil.trans (hcomps.trans (and_congr_left' same_some_iff.symm))
  exact edits_eq_nil_iff_of (by decide) (by simp [Record.members]) hmember
    (by simp [Record.members])

end MbsServiceInfo

namespace MbsSession

/-- Components that both sessions have under one number agree source by source. -/
def SameSources (old new : MbsSession) : Prop :=
  ∀ num c d, old.mediaComp? num = some c → new.mediaComp? num = some d → c.SameSources d

theorem sameSources_iff {old new : MbsSession} :
    old.SameSources new ↔
      ∀ i ∈ old.mbsServInfo, ∀ j ∈ new.mbsServInfo, i.SameSources j := by
  unfold SameSources mediaComp?
  constructor
  · intro h i hi j hj num c hc d hd
    exact h num c d (by rw [hi]; exact hc) (by rw [hj]; exact hd)
  · intro h num c d hc hd
    obtain ⟨i, hi, hc⟩ := Option.bind_eq_some_iff.1 hc
    obtain ⟨j, hj, hd⟩ := Option.bind_eq_some_iff.1 hd
    exact h i hi j hj num c hc d hd

theorem edits_eq_nil {old new : MbsSession} (hold : old.Finite) (hnew : new.Finite) :
    edits old new = [] ↔ (encode old == encode new) = true ∧ old.SameSources new := by
  have hext : (Member.optional "extMbsServiceArea" extMbsServiceArea).Tells old new :=
    tells_optional_of _ fun a ha b hb => ExtMbsServiceArea.tells (hold a ha) (hnew b hb)
  have hinfo : (Member.optional "mbsServInfo" mbsServInfo).edits old new = [] ↔
      SameOption (old.mbsServInfo.map encode) (new.mbsServInfo.map encode) ∧
        old.SameSources new := by
    rw [sameSources_iff]
    exact under_eq_nil.trans (presence_eq_nil_iff fun i _ j _ => MbsServiceInfo.edits_eq_nil)
  exact edits_eq_nil_iff_of (by decide) (by simp [Record.members]) hinfo
    (by simp [Record.members, hext])

end MbsSession

/-! ## 3. Subscriptions and civic addresses -/

instance : Separating String := ⟨scalar_eq_nil_iff_eq⟩
instance : Separating UInt16 := ⟨scalar_eq_nil_iff_eq⟩
instance : Separating Instant := ⟨scalar_eq_nil_iff_eq⟩
instance : Separating Ssm := ⟨scalar_eq_nil_iff_eq⟩
instance {k : IdentifierKind} : Separating (Identifier k) := ⟨scalar_eq_nil_iff_eq⟩
instance (priority := low) {α : Type} [Constant α] [BEq α] [LawfulBEq α] : Separating α :=
  ⟨scalar_eq_nil_iff_eq⟩

instance : Separating PlmnId :=
  ⟨by rintro ⟨_, _⟩ ⟨_, _⟩; simp [edits_eq_nil_iff, Record.members]⟩
instance : Separating Tmgi :=
  ⟨by rintro ⟨_, _⟩ ⟨_, _⟩; simp [edits_eq_nil_iff, Record.members]⟩
instance : Separating MbsSessionId :=
  ⟨by rintro ⟨_, _⟩ ⟨_, _⟩; simp [edits_eq_nil_iff, Record.members]⟩
instance : Separating MbsSessionEvent :=
  ⟨by rintro ⟨_⟩ ⟨_⟩; simp [edits_eq_nil_iff, Record.members]⟩

-- A mask is read back from its document, and that is the document of its events.
theorem MbsSessionEventMask.events_injective : Function.Injective events := by
  intro _ _ h
  exact eq_of_encode_eq (congrArg (encode : List MbsSessionEvent → Json) h)

instance : Separating MbsSessionEventMask where
  edits_eq_nil _ _ := (list_eq_nil_iff_eq _ _ _).trans MbsSessionEventMask.events_injective.eq_iff

instance : Separating MbsSessionSubscription :=
  ⟨by rintro ⟨_, _, _, _, _, _, _⟩ ⟨_, _, _, _, _, _, _⟩; simp [edits_eq_nil_iff, Record.members]⟩

instance : Separating CivicAddress where
  edits_eq_nil a b := by
    rw [edits_eq_nil_iff]
    refine ⟨fun h => ?_, fun hab => hab ▸ fun m hm => SteadyRecord.edits_self m hm a⟩
    have hget : ∀ e, a.elements.get? e = b.elements.get? e := fun e =>
      (edits_optional_eq_nil e.name (·.get? e) a b).1 (h _ (List.mem_map_of_mem e.mem_all))
    exact congrArg CivicAddress.mk (SortedMap.ext_get? hget)

theorem ExtMbsServiceArea.civicAddressList_eq {a b : ExtMbsServiceArea} (h : edits a b = []) :
    a.civicAddressList = b.civicAddressList := by
  rw [edits_eq_nil_iff] at h
  simp only [Record.members, List.forall_mem_cons, edits_sequence_eq_nil _ civicAddressList] at h
  exact h.1

namespace MbsSession

theorem fsaIds_eq {a b : MbsSession} (h : edits a b = []) :
    a.mbsFsaIdList.ids = b.mbsFsaIdList.ids := by
  have hmember := edits_eq_nil_iff.1 h (.sequence "mbsFsaIdList" fun s => s.mbsFsaIdList.ids)
    (by simp [Record.members])
  exact (edits_sequence_eq_nil _ _ a b).1 hmember

theorem civicAddresses_eq {a b : MbsSession} (h : edits a b = []) :
    a.extMbsServiceArea.map ExtMbsServiceArea.civicAddressList =
      b.extMbsServiceArea.map ExtMbsServiceArea.civicAddressList := by
  have hmember := edits_eq_nil_iff.1 h (.optional "extMbsServiceArea" extMbsServiceArea)
    (by simp [Record.members])
  have harea : presence a.extMbsServiceArea b.extMbsServiceArea = [] := under_eq_nil.1 hmember
  generalize a.extMbsServiceArea = area?, b.extMbsServiceArea = area?' at harea
  cases area? <;> cases area?'
  case none.none => rfl
  case none.some => cases harea
  case some.none => cases harea
  case some.some => exact congrArg some (ExtMbsServiceArea.civicAddressList_eq harea)

end MbsSession

/-! ## 4. Patches -/

theorem Diff.values_eq_nil_iff {α : Type} [Encode α] [Diff α] {a b : α} :
    values a b = [] ↔ edits a b = [] :=
  List.map_eq_nil_iff

/-- **A patch is empty exactly if nothing differs.** Between sessions of finite numbers that is: the
documents are the same, and components under one number agree source by source, also in sources
that the document hides. Between subscriptions it is equality. Lists that are the same in another
order do differ. -/
theorem empty_patch_iff :
    (∀ a b : MbsSession, a.Finite → b.Finite →
      (values a b = [] ↔ (encode a == encode b) = true ∧ a.SameSources b)) ∧
    (∀ a b : MbsSessionSubscription, values a b = [] ↔ a = b) ∧
    ∀ a b : MbsSession, values a b = [] →
      a.mbsFsaIdList.ids = b.mbsFsaIdList.ids ∧
        a.extMbsServiceArea.map ExtMbsServiceArea.civicAddressList =
          b.extMbsServiceArea.map ExtMbsServiceArea.civicAddressList := by
  refine ⟨fun a b ha hb => values_eq_nil_iff.trans (MbsSession.edits_eq_nil ha hb),
    fun a b => values_eq_nil_iff.trans (Separating.edits_eq_nil a b), fun a b h => ?_⟩
  have hedits : edits a b = [] := values_eq_nil_iff.1 h
  exact ⟨MbsSession.fsaIds_eq hedits, MbsSession.civicAddresses_eq hedits⟩

/-- A session at a point on the equator, with a component that has a reference besides its media
information and so hides it. -/
def placed (lon : Double) (ref : String) : MbsSession :=
  { extMbsServiceArea := some { geographicAreaList := [.point { point := ⟨lon, ⟨0⟩⟩ }] }
    mbsServInfo := some
      { mbsMediaComps := .ofList
          [(1, { mbsMedCompNum := 1, mbsMediaInfo := some {}, qosRef := some ref })] } }

/-- The two zeros are no difference, a hidden reference is one. -/
theorem empty_patch_iff_placed :
    (placed ⟨0⟩ "gold").Finite ∧ (placed ⟨0x8000000000000000⟩ "gold").Finite ∧
      (placed ⟨0⟩ "tin").Finite ∧
      values (placed ⟨0⟩ "gold") (placed ⟨0x8000000000000000⟩ "gold") = [] ∧
      (encode (placed ⟨0⟩ "gold") == encode (placed ⟨0⟩ "tin")) = true ∧
      values (placed ⟨0⟩ "gold") (placed ⟨0⟩ "tin") ≠ [] ∧
      (placed ⟨0⟩ "gold").mbsFsaIdList.ids =
        (placed ⟨0x8000000000000000⟩ "gold").mbsFsaIdList.ids := by
  have hzero : (placed ⟨0⟩ "gold").Finite := by decide
  have hminus : (placed ⟨0x8000000000000000⟩ "gold").Finite := by decide
  have htin : (placed ⟨0⟩ "tin").Finite := by decide
  have hempty : values (placed ⟨0⟩ "gold") (placed ⟨0x8000000000000000⟩ "gold") = [] := by
    refine (empty_patch_iff.1 _ _ hzero hminus).2 ⟨by decide, fun num c d hc hd => ?_⟩
    obtain rfl : c = d := Option.some.inj (hc.symm.trans hd)
    exact ⟨same_map _, same_map _, same_map _⟩
  refine ⟨hzero, hminus, htin, hempty, by decide, fun h => ?_,
    (empty_patch_iff.2.2 _ _ hempty).1⟩
  have hsources := ((empty_patch_iff.1 _ _ hzero htin).1 h).2 1 _ _ rfl rfl
  exact absurd (same_string_iff.1 (same_some_iff.1 hsources.qosRef)) (by decide)

end MbsClient
