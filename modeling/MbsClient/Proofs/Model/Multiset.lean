import Mathlib.Data.List.Basic
import MbsClient.Proofs.Json.Same
import MbsClient.Proofs.Model.Unchanged

/-!
# Equality regardless of order — of areas and of their lists

Lists that are equal once sorted are permutations of each other, because an order of keys lets no
two different keys be on a par (`sameMultiset_iff_perm`). So equality of lists of frequency
selection areas, and of areas free of NaN, is an equivalence that counts items and does not see
their order (`compared_as_multisets`).
-/

namespace MbsClient

open Number

/-! ## 1. Sorted lists -/

section

variable {α : Type} [KeyOrder α]

theorem pairwise_mergeSort_le (l : List α) :
    (l.mergeSort KeyOrder.le).Pairwise fun x y => KeyOrder.le x y = true :=
  List.pairwise_mergeSort KeyOrder.le_trans KeyOrder.le_total l

theorem sameMultiset_iff_perm {a b : List α} : sameMultiset a b = true ↔ a.Perm b := by
  have hsort : ∀ l : List α, (l.mergeSort KeyOrder.le).Perm l := fun l => List.mergeSort_perm l _
  rw [sameMultiset, Bool.and_eq_true, beq_iff_eq, beq_iff_eq]
  constructor
  · rintro ⟨-, hsame⟩
    exact (hsort a).symm.trans (hsame ▸ hsort b)
  · intro h
    have hsorted : (a.mergeSort KeyOrder.le).Perm (b.mergeSort KeyOrder.le) :=
      (hsort a).trans (h.trans (hsort b).symm)
    refine ⟨h.length_eq, hsorted.eq_of_pairwise ?_ (pairwise_mergeSort_le a)
      (pairwise_mergeSort_le b)⟩
    exact fun _ _ _ _ => KeyOrder.le_antisymm

end

/-! ## 2. Equality of numbers and shapes

It is symmetric and transitive, but a NaN is not equal to itself. -/

theorem partialEquivBEq_comap {α β : Type} [BEq α] [BEq β] [PartialEquivBEq β] (f : α → β)
    (h : ∀ a b, (a == b) = (f a == f b)) : PartialEquivBEq α where
  symm {a b} hab := by
    rw [h] at hab ⊢
    exact PartialEquivBEq.symm hab
  trans {a b c} hab hbc := by
    rw [h] at hab hbc ⊢
    exact PartialEquivBEq.trans hab hbc

instance partialEquivBEq_prod {α β : Type} [BEq α] [BEq β] [PartialEquivBEq α] [PartialEquivBEq β] :
    PartialEquivBEq (α × β) where
  symm {a b} hab := by
    obtain ⟨h1, h2⟩ := Bool.and_eq_true_iff.1 hab
    exact Bool.and_eq_true_iff.2 ⟨PartialEquivBEq.symm h1, PartialEquivBEq.symm h2⟩
  trans {a b c} hab hbc := by
    obtain ⟨h1, h2⟩ := Bool.and_eq_true_iff.1 hab
    obtain ⟨h1', h2'⟩ := Bool.and_eq_true_iff.1 hbc
    exact Bool.and_eq_true_iff.2 ⟨PartialEquivBEq.trans h1 h1', PartialEquivBEq.trans h2 h2'⟩

theorem beq_iff_forall₂ {α : Type} [BEq α] {as bs : List α} :
    (as == bs) = true ↔ List.Forall₂ (fun a b => (a == b) = true) as bs := by
  induction as generalizing bs with
  | nil => cases bs <;> simp
  | cons a as ih =>
    cases bs with
    | nil => simp
    | cons b bs => rw [List.cons_beq_cons, Bool.and_eq_true, ih, List.forall₂_cons]

instance partialEquivBEq_list {α : Type} [BEq α] [PartialEquivBEq α] :
    PartialEquivBEq (List α) where
  symm {as bs} h := by
    rw [beq_iff_forall₂] at h ⊢
    exact h.flip.imp fun _ _ => PartialEquivBEq.symm
  trans {as bs cs} hab hbc := by
    rw [beq_iff_forall₂] at hab hbc ⊢
    induction hab generalizing cs with
    | nil => exact hbc
    | cons hab _ ih =>
      cases hbc with
      | cons hbc hrest => exact .cons (PartialEquivBEq.trans hab hbc) (ih hrest)

theorem beq_list_self {α : Type} [BEq α] {as : List α} (h : ∀ a ∈ as, (a == a) = true) :
    (as == as) = true :=
  beq_iff_forall₂.2 (List.forall₂_same.2 h)

namespace Number

theorem sameNumber_zero {f : Format} {a b : Nat} {s t : Bool} {q r : Int}
    (ha : unpack f a = .finite s 0 q) (hb : unpack f b = .finite t 0 r) :
    sameNumber f a b = true := by
  simp [sameNumber, ha, hb]

theorem sameNumber_symm {f : Format} {a b : Nat} (h : sameNumber f a b = true) :
    sameNumber f b a = true := by
  obtain ⟨s, t, q, r, ha, hb⟩ | ⟨-, rfl⟩ := zero_or_eq_of_sameNumber h
  · exact sameNumber_zero hb ha
  · exact h

theorem sameNumber_trans {f : Format} {a b c : Nat} (hab : sameNumber f a b = true)
    (hbc : sameNumber f b c = true) : sameNumber f a c = true := by
  obtain ⟨s, -, q, -, ha, -⟩ | ⟨-, rfl⟩ := zero_or_eq_of_sameNumber hab
  · obtain ⟨-, t, -, r, -, hc⟩ | ⟨-, rfl⟩ := zero_or_eq_of_sameNumber hbc
    · exact sameNumber_zero ha hc
    · exact hab
  · exact hbc

instance : PartialEquivBEq Double := ⟨sameNumber_symm, sameNumber_trans⟩
instance : PartialEquivBEq Single := ⟨sameNumber_symm, sameNumber_trans⟩

end Number

instance : PartialEquivBEq GeographicalCoordinates :=
  partialEquivBEq_comap (fun c => (c.lon, c.lat)) fun _ _ => rfl
instance : PartialEquivBEq UncertaintyEllipse :=
  partialEquivBEq_comap (fun e => (e.semiMajor, e.semiMinor, e.orientationMajor)) fun _ _ => rfl
instance : PartialEquivBEq PointArea := partialEquivBEq_comap PointArea.point fun _ _ => rfl
instance : PartialEquivBEq CircleArea :=
  partialEquivBEq_comap (fun a => (a.point, a.uncertainty)) fun _ _ => rfl
instance : PartialEquivBEq EllipseArea :=
  partialEquivBEq_comap (fun a => (a.point, a.uncertaintyEllipse, a.confidence)) fun _ _ => rfl
instance : PartialEquivBEq PolygonArea := partialEquivBEq_comap PolygonArea.pointList fun _ _ => rfl
instance : PartialEquivBEq AltitudeArea :=
  partialEquivBEq_comap (fun a => (a.point, a.altitude)) fun _ _ => rfl
instance : PartialEquivBEq AltitudeEllipseArea :=
  partialEquivBEq_comap (fun a =>
    (a.point, a.altitude, a.uncertaintyEllipse, a.uncertaintyAltitude, a.confidence)) fun _ _ => rfl
instance : PartialEquivBEq ArcArea :=
  partialEquivBEq_comap (fun a =>
    (a.point, a.innerRadius, a.uncertaintyRadius, a.offsetAngle, a.includedAngle, a.confidence))
    fun _ _ => rfl

namespace GeographicArea

/-- Two areas of one shape with equal members. -/
inductive Same : GeographicArea → GeographicArea → Prop
  | point {a b : PointArea} : (a == b) = true → Same (.point a) (.point b)
  | circle {a b : CircleArea} : (a == b) = true → Same (.circle a) (.circle b)
  | ellipse {a b : EllipseArea} : (a == b) = true → Same (.ellipse a) (.ellipse b)
  | polygon {a b : PolygonArea} : (a == b) = true → Same (.polygon a) (.polygon b)
  | altitude {a b : AltitudeArea} : (a == b) = true → Same (.altitude a) (.altitude b)
  | altitudeEllipse {a b : AltitudeEllipseArea} :
      (a == b) = true → Same (.altitudeEllipse a) (.altitudeEllipse b)
  | arc {a b : ArcArea} : (a == b) = true → Same (.arc a) (.arc b)

theorem beq_iff_same {a b : GeographicArea} : (a == b) = true ↔ Same a b := by
  constructor
  · intro h
    cases a <;> cases b <;> first | (constructor; exact h) | exact absurd h Bool.false_ne_true
  · intro h
    cases h <;> assumption

instance : PartialEquivBEq GeographicArea where
  symm {a b} h := by
    rw [beq_iff_same] at h ⊢
    cases h <;> constructor <;> exact PartialEquivBEq.symm ‹_›
  trans {a b c} hab hbc := by
    rw [beq_iff_same] at hab hbc ⊢
    cases hab <;> cases hbc <;> constructor <;> exact PartialEquivBEq.trans ‹_› ‹_›

end GeographicArea

/-! ## 3. Values free of NaN are equal to themselves -/

theorem GeographicalCoordinates.beq_self {c : GeographicalCoordinates} (h : c.NoNaN) :
    (c == c) = true :=
  Bool.and_eq_true_iff.2 ⟨Double.beq_self h.1, Double.beq_self h.2⟩

theorem UncertaintyEllipse.beq_self {e : UncertaintyEllipse} (h : e.NoNaN) : (e == e) = true :=
  Bool.and_eq_true_iff.2 ⟨Single.beq_self h.1,
    Bool.and_eq_true_iff.2 ⟨Single.beq_self h.2, beq_self_eq_true e.orientationMajor⟩⟩

theorem GeographicArea.beq_self {a : GeographicArea} (h : a.NoNaN) : (a == a) = true := by
  have hpoint : ∀ {p : GeographicalCoordinates}, p.NoNaN → (p == p) = true :=
    GeographicalCoordinates.beq_self
  have hand : ∀ {x y : Bool}, x = true → y = true → (x && y) = true := fun hx hy =>
    Bool.and_eq_true_iff.2 ⟨hx, hy⟩
  rw [beq_iff_same]
  cases a with
  | point a => exact .point (hpoint h)
  | circle a => exact .circle (hand (hpoint h.1) (Single.beq_self h.2))
  | ellipse a =>
    exact .ellipse (hand (hpoint h.1)
      (hand (UncertaintyEllipse.beq_self h.2) (beq_self_eq_true a.confidence)))
  | polygon a => exact .polygon (beq_list_self fun p hp => hpoint (h p hp))
  | altitude a => exact .altitude (hand (hpoint h.1) (Double.beq_self h.2))
  | altitudeEllipse a =>
    obtain ⟨hp, haltitude, hellipse, huncertainty⟩ := h
    exact .altitudeEllipse (hand (hpoint hp) (hand (Double.beq_self haltitude)
      (hand (UncertaintyEllipse.beq_self hellipse)
        (hand (Single.beq_self huncertainty) (beq_self_eq_true a.confidence)))))
  | arc a =>
    exact .arc (hand (hpoint h.1) (hand (beq_self_eq_true a.innerRadius)
      (hand (Single.beq_self h.2) (hand (beq_self_eq_true a.offsetAngle)
        (hand (beq_self_eq_true a.includedAngle) (beq_self_eq_true a.confidence))))))

/-! ## 4. Records with a list whose order does not count -/

section

variable {R ι : Type} [BEq R] [KeyOrder ι] {Valid : R → Prop} {items : R → List ι}
  {withItems : List ι → R → R}

/-- `==` is an equivalence of the valid records that counts each item and does not see the order of
the items. -/
structure IgnoresOrder (Valid : R → Prop) (items : R → List ι) (withItems : List ι → R → R) :
    Prop where
  equivalence : Equivalence fun a b : { r // Valid r } => (a.1 == b.1) = true
  reordered : ∀ (a b : R) (is : List ι), is.Perm (items a) →
    (withItems is a == b) = (a == b) ∧ (b == withItems is a) = (b == a)
  counted : ∀ a b : R, (a == b) = true → ∀ i, (items a).count i = (items b).count i

-- Equality that goes by the items as a multiset, and by `Same` for the rest of the records.
theorem IgnoresOrder.of_perm (Same : R → R → Prop)
    (hbeq : ∀ a b, (a == b) = true ↔ (items a).Perm (items b) ∧ Same a b)
    (hitems : ∀ is a, items (withItems is a) = is)
    (hrefl : ∀ a, Valid a → Same a a) (hsymm : ∀ {a b}, Same a b → Same b a)
    (htrans : ∀ {a b c}, Same a b → Same b c → Same a c)
    (hrest : ∀ is a b, Same (withItems is a) b ↔ Same a b) :
    IgnoresOrder Valid items withItems where
  equivalence :=
    { refl a := (hbeq _ _).2 ⟨.refl _, hrefl a.1 a.2⟩
      symm {a b} h := by
        obtain ⟨hperm, hsame⟩ := (hbeq _ _).1 h
        exact (hbeq _ _).2 ⟨hperm.symm, hsymm hsame⟩
      trans {a b c} hab hbc := by
        obtain ⟨hperm, hsame⟩ := (hbeq _ _).1 hab
        obtain ⟨hperm', hsame'⟩ := (hbeq _ _).1 hbc
        exact (hbeq _ _).2 ⟨hperm.trans hperm', htrans hsame hsame'⟩ }
  reordered a b is h := by
    have hsame : ∀ c, Same c (withItems is a) ↔ Same c a := fun c =>
      ⟨fun hc => hsymm ((hrest is a c).1 (hsymm hc)), fun hc => hsymm ((hrest is a c).2 (hsymm hc))⟩
    constructor
    · rw [Bool.eq_iff_iff, hbeq, hbeq, hitems, hrest]
      exact and_congr_left' (h.congr_left _)
    · rw [Bool.eq_iff_iff, hbeq, hbeq, hitems, hsame]
      exact and_congr_left' (h.congr_right _)
  counted a b h i := ((hbeq a b).1 h).1.count_eq i

end

theorem FsaIdList.ignoresOrder :
    IgnoresOrder (fun _ : FsaIdList => True) FsaIdList.ids (fun ids _ => ⟨ids⟩) :=
  .of_perm (fun _ _ => True) (fun _ _ => sameMultiset_iff_perm.trans (and_iff_left trivial).symm)
    (fun _ _ => rfl) (fun _ _ => trivial) (fun _ => trivial) (fun _ _ => trivial)
    (fun _ _ _ => Iff.rfl)

theorem ExtMbsServiceArea.ignoresOrder :
    IgnoresOrder ExtMbsServiceArea.NoNaN ExtMbsServiceArea.civicAddressList
      (fun addresses a => { a with civicAddressList := addresses }) :=
  .of_perm (fun a b => (a.geographicAreaList == b.geographicAreaList) = true)
    (fun _ _ => Bool.and_eq_true_iff.trans (and_congr_left' sameMultiset_iff_perm))
    (fun _ _ => rfl) (fun _ h => beq_list_self fun g hg => GeographicArea.beq_self (h g hg))
    PartialEquivBEq.symm PartialEquivBEq.trans (fun _ _ _ => Iff.rfl)

/-- **Multisets compare equal exactly if they are permutations of each other**, which is to say that
every value occurs equally often in both. Equality of lists of frequency selection areas, and of
service areas without NaN, is an equivalence that does not change when areas or addresses are
reordered and that tells apart lists in which some value occurs a different number of times. -/
theorem compared_as_multisets :
    (∀ {α : Type} [KeyOrder α] (a b : List α),
      (sameMultiset a b = true ↔ b.Perm a) ∧
        (sameMultiset a b = true ↔ ∀ x, a.count x = b.count x)) ∧
    IgnoresOrder (fun _ : FsaIdList => True) FsaIdList.ids (fun ids _ => ⟨ids⟩) ∧
    IgnoresOrder ExtMbsServiceArea.NoNaN ExtMbsServiceArea.civicAddressList
      (fun addresses a => { a with civicAddressList := addresses }) := by
  refine ⟨fun a b => ⟨sameMultiset_iff_perm.trans List.perm_comm, ?_⟩, FsaIdList.ignoresOrder,
    ExtMbsServiceArea.ignoresOrder⟩
  rw [sameMultiset_iff_perm, List.perm_iff_count]

example : sameMultiset [1, 2, 1] [2, 1, 1] = true ∧ sameMultiset [1, 2, 1] [2, 1, 2] = false := by
  cbv

end MbsClient
