import MbsClient.Proofs.Model.Area
import MbsClient.Proofs.Model.Patching
import MbsClient.Proofs.Model.Unchanged
import MbsClient.Proofs.Patch.Empty

/-!
# Values told apart by their edits

Of a value that is compared as a whole there is an edit exactly if its document changes, because a
document reads back as the value it was written for. With records this goes member by member. The
numbers of an area have to be finite; others are not written at all.
-/

namespace MbsClient

open Diff Json Net Number Time

/-! ## 1. Values without parts -/

/-- A value that is written as a text or as an integer. -/
def Plain {α : Type} [Encode α] (a : α) : Prop :=
  (∃ s, encode a = .string s) ∨ ∃ n, encode a = .int n

section

variable {α : Type} [Encode α] [Decode α] [Readable α]

theorem eq_of_same_encode {a b : α} (ha : Plain a) (hb : Plain b)
    (h : (encode a == encode b) = true) : a = b :=
  eq_of_encode_eq (eq_of_same ha hb h)

theorem scalar_eq_nil_iff [SelfSame α] [BEq α] [LawfulBEq α] (hplain : ∀ a : α, Plain a)
    (a b : α) : scalar a b = [] ↔ (encode a == encode b) = true := by
  rw [scalar_eq_nil, beq_iff_eq]
  constructor
  · rintro rfl
    exact same_self a
  · exact eq_of_same_encode (hplain a) (hplain b)

end

instance : Telling String := ⟨scalar_eq_nil_iff fun s => .inl ⟨s, rfl⟩⟩
instance : Telling UInt8 := ⟨scalar_eq_nil_iff fun n => .inr ⟨n.toNat, rfl⟩⟩
instance : Telling UInt16 := ⟨scalar_eq_nil_iff fun n => .inr ⟨n.toNat, rfl⟩⟩
instance : Telling UInt32 := ⟨scalar_eq_nil_iff fun n => .inr ⟨n.toNat, rfl⟩⟩
instance : Telling Int32 := ⟨scalar_eq_nil_iff fun n => .inr ⟨n.toInt, rfl⟩⟩
instance : Telling BitRate := ⟨scalar_eq_nil_iff fun r => .inl ⟨r.text, rfl⟩⟩
instance : Telling ReservationPriority := ⟨scalar_eq_nil_iff fun p => .inl ⟨p.text, rfl⟩⟩
instance : Telling Instant := ⟨scalar_eq_nil_iff fun t => .inl ⟨t.text, rfl⟩⟩
instance {k : IdentifierKind} [k.Printed] : Telling (Identifier k) :=
  ⟨scalar_eq_nil_iff fun i => .inl ⟨i.text, rfl⟩⟩
instance (priority := low) {α : Type} [Constant α] [BEq α] [LawfulBEq α] [Readable α] :
    Telling α :=
  ⟨scalar_eq_nil_iff fun a => .inl ⟨Constant.name a, rfl⟩⟩

theorem same_single_iff {name name' : String} {d e : Json} :
    (Json.object [(name, d)] == Json.object [(name', e)]) = true ↔
      name = name' ∧ (d == e) = true := by
  show sameMembers [(name, d)] [(name', e)] = true ↔ _
  rw [sameMembers, sameMembers, Bool.and_true, Bool.and_eq_true, beq_iff_eq]
  rfl

theorem eq_of_same_encodeAddress {a b : Address}
    (h : (encodeAddress a == encodeAddress b) = true) : a = b := by
  cases a with
  | v4 ip =>
    cases b with
    | v4 ip' =>
      have hip := (same_single_iff (d := encode ip) (e := encode ip')).1 h
      rw [eq_of_same_encode (.inl ⟨ip.text, rfl⟩) (.inl ⟨ip'.text, rfl⟩) hip.2]
    | v6 ip' =>
      exact absurd ((same_single_iff (d := encode ip) (e := encode ip')).1 h).1 (by decide)
  | v6 ip =>
    cases b with
    | v4 ip' =>
      exact absurd ((same_single_iff (d := encode ip) (e := encode ip')).1 h).1 (by decide)
    | v6 ip' =>
      have hip := (same_single_iff (d := encode ip) (e := encode ip')).1 h
      rw [eq_of_same_encode (.inl ⟨ip.text, rfl⟩) (.inl ⟨ip'.text, rfl⟩) hip.2]

instance : Telling Ssm where
  tells a b := by
    refine scalar_eq_nil.trans (beq_iff_eq.trans ⟨fun h => h ▸ same_self a, fun h => ?_⟩)
    have hmembers : sameMembers
        [("destIpAddr", encodeAddress a.dest), ("sourceIpAddr", encodeAddress a.source)]
        [("destIpAddr", encodeAddress b.dest), ("sourceIpAddr", encodeAddress b.source)] = true := h
    simp only [sameMembers, beq_self_eq_true, Bool.true_and, Bool.and_true,
      Bool.and_eq_true] at hmembers
    obtain ⟨source, dest, _, _⟩ := a
    obtain ⟨source', dest', _, _⟩ := b
    obtain rfl : dest = dest' := eq_of_same_encodeAddress hmembers.1
    obtain rfl : source = source' := eq_of_same_encodeAddress hmembers.2
    rfl

/-! ## 2. Records -/

instance : TellingRecord PlmnId := ⟨by simp [Record.members]⟩
instance : TellingRecord Tmgi := ⟨by simp [Record.members]⟩
instance : TellingRecord MbsSessionId := ⟨by simp [Record.members]⟩
instance : TellingRecord Arp := ⟨by simp [Record.members]⟩
instance : TellingRecord MbsQosReq := ⟨by simp [Record.members]⟩
instance : TellingRecord MbsMediaInfo := ⟨by simp [Record.members]⟩
instance : TellingRecord Tai := ⟨by simp [Record.members]⟩
instance : TellingRecord Ncgi := ⟨by simp [Record.members]⟩
instance : TellingRecord NcgiTai := ⟨by simp [Record.members]⟩
instance : TellingRecord MbsServiceArea := ⟨by simp [Record.members]⟩

instance : TellingRecord CivicAddress where
  tells m hm old new := by
    obtain ⟨e, -, rfl⟩ := List.mem_map.1 hm
    exact Member.tells_optional e.name _ old new

/-! ## 3. Numbers -/

theorem Number.Double.tells {x y : Double} (hx : x.isFinite = true) (hy : y.isFinite = true) :
    Tells x y := by
  unfold Tells
  rw [Double.encode_eq hx, Double.encode_eq hy]
  exact scalar_eq_nil

-- The doubles of two zeros are zeros, and only those of zeros are.
theorem Number.Single.same_of_same_toDouble {x y : Single} (hx : x.isFinite = true)
    (hy : y.isFinite = true) (h : (x.toDouble == y.toDouble) = true) : (x == y) = true := by
  obtain ⟨s, t, q, r, hxq, hyr⟩ | ⟨-, heq⟩ := zero_or_eq_of_sameNumber h
  · have hzero : ∀ {z : Single}, z.isFinite = true → ∀ {u p}, z.toDouble.unpack = .finite u 0 p →
        ∃ p, z.unpack = .finite u 0 p := by
      intro z hz u p hdouble
      obtain ⟨v, m, q, hunpack, hholds, -⟩ := Single.unpack_of_isFinite hz
      obtain ⟨m', q', hdouble', hiff, -⟩ := Single.unpack_toDouble hholds hunpack
      rw [hdouble] at hdouble'
      obtain ⟨rfl, rfl, rfl⟩ := Unpacked.finite.inj hdouble'
      obtain rfl := hiff.2 rfl
      exact ⟨q, hunpack⟩
    obtain ⟨p, hp⟩ := hzero hx hxq
    obtain ⟨p', hp'⟩ := hzero hy hyr
    show sameNumber .single x.bits.toNat y.bits.toNat = true
    have hp : Number.unpack .single x.bits.toNat = .finite s 0 p := hp
    have hp' : Number.unpack .single y.bits.toNat = .finite t 0 p' := hp'
    simp only [sameNumber, hp, hp']
  · have hdouble : x.toDouble = y.toDouble := congrArg Double.mk (UInt64.toNat_inj.1 heq)
    have hxy : x = y := by
      rw [← Single.ofDouble_toDouble hx, hdouble, Single.ofDouble_toDouble hy]
    subst hxy
    apply sameNumber_self
    intro hnan
    have hunpack : x.unpack = .nan := hnan
    simp [Single.isFinite, hunpack] at hx

theorem Number.Single.tells {x y : Single} (hx : x.isFinite = true) (hy : y.isFinite = true) :
    Tells x y := by
  refine scalar_eq_nil.trans ⟨Single.same_toDouble, fun h => ?_⟩
  rw [Single.encode_eq hx, Single.encode_eq hy] at h
  exact Single.same_of_same_toDouble hx hy h

/-! ## 4. Areas -/

open Member

theorem GeographicalCoordinates.tells {a b : GeographicalCoordinates} (ha : a.Finite)
    (hb : b.Finite) : Diff.Tells a b := by
  apply tells_record
  simp only [Record.members, List.forall_mem_cons]
  exact ⟨tells_always_of _ (Double.tells ha.1 hb.1), tells_always_of _ (Double.tells ha.2 hb.2),
    by simp⟩

theorem UncertaintyEllipse.tells {a b : UncertaintyEllipse} (ha : a.Finite) (hb : b.Finite) :
    Diff.Tells a b := by
  apply tells_record
  simp only [Record.members, List.forall_mem_cons]
  exact ⟨tells_always_of _ (Single.tells ha.1 hb.1), tells_always_of _ (Single.tells ha.2 hb.2),
    by simp⟩

namespace GeographicArea

-- Areas of one shape are told apart by their members.
theorem tells_shape {R : Type} [Record R] {shape : String} {a b : R} {g g' : GeographicArea}
    (hn : ("shape" :: (Record.members : List (Member R)).map name).Nodup)
    (hg : encode g = .record (("shape", some (.string shape)) :: Member.document Record.members a))
    (hg' : encode g' =
      .record (("shape", some (.string shape)) :: Member.document Record.members b))
    (hedits : edits g g' = differences Record.members a b)
    (h : ∀ m ∈ (Record.members : List (Member R)), m.Tells a b) : Diff.Tells g g' := by
  unfold Diff.Tells
  rw [hg, hg', hedits]
  refine tells_differences [("shape", some (.string shape))] hn ?_ h
  intro e he
  rw [List.mem_singleton.1 he]
  exact .some (same_string shape)

theorem get?_shape (g : GeographicArea) :
    Entries.get? "shape" (recordEntries (("shape", some (.string g.shape)) :: g.document)) =
      some (.string g.shape) := by
  apply get?_recordEntries
  · show ("shape" :: g.document.map Prod.fst).Nodup
    cases g <;> (rw [GeographicArea.document, names_document]; decide)
  · exact List.mem_cons_self

-- Areas of different shapes have different documents.
theorem tells_of_shape_ne {a b : GeographicArea} (hshape : a.shape ≠ b.shape)
    (hedits : edits a b = [.replace [] (encode b)]) : Diff.Tells a b := by
  refine iff_of_false (by rw [hedits]; simp) fun h => hshape ?_
  have hsame : (Json.object (recordEntries (("shape", some (.string a.shape)) :: a.document)) ==
      Json.object (recordEntries (("shape", some (.string b.shape)) :: b.document))) = true := h
  have hentry :=
    (same_object_iff (sorted_recordEntries _) (sorted_recordEntries _)).1 hsame "shape"
  rw [get?_shape, get?_shape, same_some_iff] at hentry
  exact same_string_iff.1 hentry

theorem tells {a b : GeographicArea} (ha : a.Finite) (hb : b.Finite) : Diff.Tells a b := by
  have hpoint : ∀ {p q : GeographicalCoordinates}, p.Finite → q.Finite → Diff.Tells p q :=
    GeographicalCoordinates.tells
  cases a <;> cases b
  case point.point a b =>
    refine tells_shape (R := PointArea) (by decide) rfl rfl rfl ?_
    simp only [Record.members, List.forall_mem_cons]
    exact ⟨tells_always_of _ (hpoint ha hb), by simp⟩
  case circle.circle a b =>
    refine tells_shape (R := CircleArea) (by decide) rfl rfl rfl ?_
    simp only [Record.members, List.forall_mem_cons]
    exact ⟨tells_always_of _ (hpoint ha.1 hb.1), tells_always_of _ (Single.tells ha.2 hb.2),
      by simp⟩
  case ellipse.ellipse a b =>
    refine tells_shape (R := EllipseArea) (by decide) rfl rfl rfl ?_
    simp only [Record.members, List.forall_mem_cons]
    exact ⟨tells_always_of _ (hpoint ha.1 hb.1),
      tells_always_of _ (UncertaintyEllipse.tells ha.2 hb.2), by simp⟩
  case polygon.polygon a b =>
    refine tells_shape (R := PolygonArea) (by decide) rfl rfl rfl ?_
    simp only [Record.members, List.forall_mem_cons]
    exact ⟨tells_always_of _ (tells_list fun p hp q hq => hpoint (ha p hp) (hb q hq)), by simp⟩
  case altitude.altitude a b =>
    refine tells_shape (R := AltitudeArea) (by decide) rfl rfl rfl ?_
    simp only [Record.members, List.forall_mem_cons]
    exact ⟨tells_always_of _ (hpoint ha.1 hb.1), tells_always_of _ (Double.tells ha.2 hb.2),
      by simp⟩
  case altitudeEllipse.altitudeEllipse a b =>
    refine tells_shape (R := AltitudeEllipseArea) (by decide) rfl rfl rfl ?_
    simp only [Record.members, List.forall_mem_cons]
    exact ⟨tells_always_of _ (hpoint ha.1 hb.1), tells_always_of _ (Double.tells ha.2.1 hb.2.1),
      tells_always_of _ (UncertaintyEllipse.tells ha.2.2.1 hb.2.2.1),
      tells_always_of _ (Single.tells ha.2.2.2 hb.2.2.2), by simp⟩
  case arc.arc a b =>
    refine tells_shape (R := ArcArea) (by decide) rfl rfl rfl ?_
    simp only [Record.members, List.forall_mem_cons]
    exact ⟨tells_always_of _ (hpoint ha.1 hb.1), by simp,
      tells_always_of _ (Single.tells ha.2 hb.2), by simp⟩
  -- the areas left are of two shapes
  all_goals exact tells_of_shape_ne (by simp [shape]) rfl

end GeographicArea

theorem ExtMbsServiceArea.tells {a b : ExtMbsServiceArea} (ha : a.Finite) (hb : b.Finite) :
    Diff.Tells a b := by
  apply tells_record
  simp only [Record.members, List.forall_mem_cons]
  exact ⟨by simp,
    tells_sequence_of _ fun g hg g' hg' => GeographicArea.tells (ha g hg) (hb g' hg'), by simp⟩

end MbsClient
