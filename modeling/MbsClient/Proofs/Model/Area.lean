import MbsClient.Proofs.Model.Readable
import MbsClient.Proofs.Number.Exact

/-!
# Areas of finite numbers — read back as they were

Of the types of the model only geographic areas hold numbers of floating point. A number that is
not finite has no document; any other is written exactly, a single as the double of its value.
-/

namespace MbsClient

open Json Number

/-! ## 1. Finite areas -/

def GeographicalCoordinates.Finite (c : GeographicalCoordinates) : Prop :=
  c.lon.isFinite = true ∧ c.lat.isFinite = true

def UncertaintyEllipse.Finite (e : UncertaintyEllipse) : Prop :=
  e.semiMajor.isFinite = true ∧ e.semiMinor.isFinite = true

def GeographicArea.Finite : GeographicArea → Prop
  | .point a => a.point.Finite
  | .circle a => a.point.Finite ∧ a.uncertainty.isFinite = true
  | .ellipse a => a.point.Finite ∧ a.uncertaintyEllipse.Finite
  | .polygon a => ∀ p ∈ a.pointList, p.Finite
  | .altitude a => a.point.Finite ∧ a.altitude.isFinite = true
  | .altitudeEllipse a => a.point.Finite ∧ a.altitude.isFinite = true ∧
      a.uncertaintyEllipse.Finite ∧ a.uncertaintyAltitude.isFinite = true
  | .arc a => a.point.Finite ∧ a.uncertaintyRadius.isFinite = true

def ExtMbsServiceArea.Finite (a : ExtMbsServiceArea) : Prop :=
  ∀ g ∈ a.geographicAreaList, g.Finite

/-- Every number of floating point in the session is finite. -/
def MbsSession.Finite (s : MbsSession) : Prop := ∀ a ∈ s.extMbsServiceArea, a.Finite

instance (c : GeographicalCoordinates) : Decidable c.Finite := inferInstanceAs (Decidable (_ ∧ _))

instance (e : UncertaintyEllipse) : Decidable e.Finite := inferInstanceAs (Decidable (_ ∧ _))

instance (g : GeographicArea) : Decidable g.Finite :=
  match g with
  | .point a => inferInstanceAs (Decidable a.point.Finite)
  | .circle _ => inferInstanceAs (Decidable (_ ∧ _))
  | .ellipse _ => inferInstanceAs (Decidable (_ ∧ _))
  | .polygon _ => inferInstanceAs (Decidable (∀ p ∈ _, _))
  | .altitude _ => inferInstanceAs (Decidable (_ ∧ _))
  | .altitudeEllipse _ => inferInstanceAs (Decidable (_ ∧ _ ∧ _ ∧ _))
  | .arc _ => inferInstanceAs (Decidable (_ ∧ _))

instance (a : ExtMbsServiceArea) : Decidable a.Finite := inferInstanceAs (Decidable (∀ g ∈ _, _))

instance (s : MbsSession) : Decidable s.Finite := inferInstanceAs (Decidable (∀ a ∈ _, _))

section

variable {σ : Type} [Source σ] [JsonSource σ]

/-! ## 2. Numbers -/

theorem Number.Double.encode_eq {x : Double} (h : x.isFinite = true) : encode x = .float x := by
  show Json.ofDouble x = _
  rw [Json.ofDouble, if_pos h]

theorem Number.Double.reads {x : Double} (h : x.isFinite = true) : Reads σ x x where
  decode_encode := by
    rw [Double.encode_eq h]
    simp only [decode, JsonSource.float?_ofJson]
  isNull_encode := by rw [Double.encode_eq h]; rfl

theorem Number.Single.encode_eq {x : Single} (h : x.isFinite = true) :
    encode x = .float x.toDouble :=
  Double.encode_eq (Single.isFinite_toDouble h)

theorem Number.Single.reads {x : Single} (h : x.isFinite = true) : Reads σ x x where
  decode_encode := by
    rw [Single.encode_eq h]
    simp only [decode, JsonSource.float?_ofJson, Single.ofDouble_toDouble h]
  isNull_encode := by rw [Single.encode_eq h]; rfl

/-! ## 3. Shapes -/

theorem GeographicalCoordinates.reads {c : GeographicalCoordinates} (h : c.Finite) :
    Reads σ c c := by
  obtain ⟨fields, hread, hgives⟩ := Fields.read_record (σ := σ) (by decide) c
  simp only [Record.members, List.forall_mem_cons] at hgives
  obtain ⟨hlon, hlat, -⟩ := hgives
  exact ⟨by simp [decode, hread, hlon.always (Double.reads h.1), hlat.always (Double.reads h.2)],
    rfl⟩

theorem UncertaintyEllipse.reads {e : UncertaintyEllipse} (h : e.Finite) : Reads σ e e := by
  obtain ⟨fields, hread, hgives⟩ := Fields.read_record (σ := σ) (by decide) e
  simp only [Record.members, List.forall_mem_cons] at hgives
  obtain ⟨hmajor, hminor, horientation, -⟩ := hgives
  exact ⟨by simp [decode, hread, hmajor.always (Single.reads h.1),
    hminor.always (Single.reads h.2), horientation.required], rfl⟩

end

/-! ## 4. Areas -/

namespace GeographicArea

-- The shape is split off, and the rest of the document is left.
theorem splitShape?_ofJson {shape : String} {entries : List (String × Json)}
    (hs : Entries.Sorted entries) (h : Entries.get? "shape" entries = some (.string shape)) :
    splitShape? (Settled.ofJson (.object entries)) =
      some (shape, Settled.ofJson (.object (Entries.erase "shape" entries))) := by
  have hshape : (Settled.ofMembers entries).filter
      (fun m => decide (m.1 = some (.name "shape"))) =
      [(some (.name "shape"), .text shape)] := by
    rw [Settled.ofMembers_eq_map, List.filter_map,
      List.filter_congr (q := fun e => decide (e.1 = "shape")) (by simp),
      Entries.filter_eq_singleton (by simp) hs h]
    rfl
  have hrest : (Settled.ofMembers entries).filter
      (not ∘ fun m => decide (m.1 = some (.name "shape"))) =
      Settled.ofMembers (Entries.erase "shape" entries) := by
    rw [Settled.ofMembers_eq_map, Settled.ofMembers_eq_map, List.filter_map, Entries.erase]
    refine congrArg _ (List.filter_congr fun e _ => congrArg (!·) (decide_eq_decide.2 ?_))
    exact ⟨fun hname => (Label.name.inj (Option.some.inj hname)).symm,
      fun hname => congrArg (some ∘ Label.name) hname.symm⟩
  show splitShape? (.record (Settled.ofMembers entries)) = _
  unfold splitShape?
  dsimp only
  rw [List.partition_eq_filter_filter, hshape, hrest]
  rfl

-- What is left of the document of an area gives the members of its shape.
theorem exists_fields {R : Type} [Record R] {shape : String} {r : R} {g : GeographicArea}
    (hn : ("shape" :: (Record.members : List (Member R)).map Member.name).Nodup)
    (hg : encode g = .record (("shape", some (.string shape)) ::
      Member.document Record.members r)) :
    ∃ (rest : Settled) (fields : Fields Settled),
      splitShape? (Settled.ofJson (encode g)) = some (shape, rest) ∧
      (∀ names, Fields.read names rest = .ok fields) ∧
      ∀ m ∈ Record.members, fields.Gives m.name (m.shown r) := by
  have hnames : ((("shape", some (.string shape)) :: Member.document Record.members r).map
      Prod.fst).Nodup := by
    simpa [Member.document, Function.comp_def] using hn
  have hs := sorted_recordEntries
    (("shape", some (.string shape)) :: Member.document Record.members r)
  obtain ⟨fields, hread, hgives⟩ :=
    Fields.read_object (σ := Settled) (Entries.sorted_erase "shape" hs)
  rw [hg]
  refine ⟨_, fields, splitShape?_ofJson hs (get?_recordEntries hnames List.mem_cons_self), hread,
    fun m hm => ?_⟩
  have hne : m.name ≠ "shape" := fun heq =>
    (List.nodup_cons.1 hn).1 (heq ▸ List.mem_map_of_mem hm)
  have hshown := get?_recordEntries hnames (List.mem_cons_of_mem _ (List.mem_map_of_mem hm))
  rw [← hshown, ← Entries.get?_erase_of_ne hne]
  exact hgives m.name

/-- Reads the members of an area of the same shape as `g`. -/
def readLike (g : GeographicArea) (fields : Fields Settled) : Decoded GeographicArea :=
  match g with
  | .point _ => (PointArea.ofFields fields).map .point
  | .circle _ => (CircleArea.ofFields fields).map .circle
  | .ellipse _ => (EllipseArea.ofFields fields).map .ellipse
  | .polygon _ => (PolygonArea.ofFields fields).map .polygon
  | .altitude _ => (AltitudeArea.ofFields fields).map .altitude
  | .altitudeEllipse _ => (AltitudeEllipseArea.ofFields fields).map .altitudeEllipse
  | .arc _ => (ArcArea.ofFields fields).map .arc

theorem ofDocument_eq {d rest : Settled} {fields : Fields Settled} {g : GeographicArea}
    (hsplit : splitShape? d = some (g.shape, rest))
    (hread : ∀ names, Fields.read names rest = .ok fields) :
    ofDocument d = readLike g fields := by
  have hnames : ∃ names, memberNames g.shape = some names := by
    cases g <;> exact ⟨_, rfl⟩
  obtain ⟨names, hnames⟩ := hnames
  unfold ofDocument
  rw [hsplit, needed_some, Decoded.ok_bind]
  dsimp only
  rw [hnames, needed_some, Decoded.ok_bind, hread, Decoded.ok_bind]
  cases g <;> rfl

theorem ofDocument_encode {g : GeographicArea} (h : g.Finite) :
    ofDocument (Settled.ofJson (encode g)) = .ok g := by
  have hpoint : ∀ {p : GeographicalCoordinates}, p.Finite → Reads Settled p p :=
    GeographicalCoordinates.reads
  cases g with
  | point a =>
    obtain ⟨rest, fields, hsplit, hread, hgives⟩ :=
      exists_fields (g := .point a) (by decide) rfl
    simp only [Record.members, List.forall_mem_cons] at hgives
    obtain ⟨hp, -⟩ := hgives
    rw [ofDocument_eq hsplit hread]
    simp [readLike, PointArea.ofFields, hp.always (hpoint h)]
  | circle a =>
    obtain ⟨rest, fields, hsplit, hread, hgives⟩ :=
      exists_fields (g := .circle a) (by decide) rfl
    simp only [Record.members, List.forall_mem_cons] at hgives
    obtain ⟨hp, huncertainty, -⟩ := hgives
    rw [ofDocument_eq hsplit hread]
    simp [readLike, CircleArea.ofFields, hp.always (hpoint h.1),
      huncertainty.always (Single.reads h.2)]
  | ellipse a =>
    obtain ⟨rest, fields, hsplit, hread, hgives⟩ :=
      exists_fields (g := .ellipse a) (by decide) rfl
    simp only [Record.members, List.forall_mem_cons] at hgives
    obtain ⟨hp, hellipse, hconfidence, -⟩ := hgives
    rw [ofDocument_eq hsplit hread]
    simp [readLike, EllipseArea.ofFields, hp.always (hpoint h.1),
      hellipse.always (UncertaintyEllipse.reads h.2), hconfidence.required]
  | polygon a =>
    obtain ⟨rest, fields, hsplit, hread, hgives⟩ :=
      exists_fields (g := .polygon a) (by decide) rfl
    simp only [Record.members, List.forall_mem_cons] at hgives
    obtain ⟨hps, -⟩ := hgives
    have hpoints := Reads.list (σ := Settled) (g := id) fun p hp => hpoint (h p hp)
    rw [List.map_id] at hpoints
    rw [ofDocument_eq hsplit hread]
    simp [readLike, PolygonArea.ofFields, hps.always hpoints]
  | altitude a =>
    obtain ⟨rest, fields, hsplit, hread, hgives⟩ :=
      exists_fields (g := .altitude a) (by decide) rfl
    simp only [Record.members, List.forall_mem_cons] at hgives
    obtain ⟨hp, haltitude, -⟩ := hgives
    rw [ofDocument_eq hsplit hread]
    simp [readLike, AltitudeArea.ofFields, hp.always (hpoint h.1),
      haltitude.always (Double.reads h.2)]
  | altitudeEllipse a =>
    obtain ⟨hfinite, hfaltitude, hfellipse, hfuncertainty⟩ := h
    obtain ⟨rest, fields, hsplit, hread, hgives⟩ :=
      exists_fields (g := .altitudeEllipse a) (by decide) rfl
    simp only [Record.members, List.forall_mem_cons] at hgives
    obtain ⟨hp, haltitude, hellipse, huncertainty, hconfidence, -⟩ := hgives
    rw [ofDocument_eq hsplit hread]
    simp [readLike, AltitudeEllipseArea.ofFields,
      hp.always (hpoint hfinite), haltitude.always (Double.reads hfaltitude),
      hellipse.always (UncertaintyEllipse.reads hfellipse),
      huncertainty.always (Single.reads hfuncertainty), hconfidence.required]
  | arc a =>
    obtain ⟨rest, fields, hsplit, hread, hgives⟩ :=
      exists_fields (g := .arc a) (by decide) rfl
    simp only [Record.members, List.forall_mem_cons] at hgives
    obtain ⟨hp, hinner, huncertainty, hoffset, hincluded, hconfidence, -⟩ := hgives
    rw [ofDocument_eq hsplit hread]
    simp [readLike, ArcArea.ofFields, hp.always (hpoint h.1),
      hinner.required, huncertainty.always (Single.reads h.2), hoffset.required,
      hincluded.required, hconfidence.required]

theorem reads {σ : Type} [Source σ] [JsonSource σ] {g : GeographicArea} (h : g.Finite) :
    Reads σ g g where
  decode_encode := by
    show (needed (Source.settle? (ofJson (encode g) : σ)) >>= ofDocument) = _
    rw [JsonSource.settle?_ofJson, needed_some, Decoded.ok_bind, ofDocument_encode h]
  isNull_encode := rfl

end GeographicArea

theorem ExtMbsServiceArea.reads {σ : Type} [Source σ] [JsonSource σ] {a : ExtMbsServiceArea}
    (h : a.Finite) : Reads σ a a := by
  obtain ⟨fields, hread, hgives⟩ := Fields.read_record (σ := σ) (by decide) a
  simp only [Record.members, List.forall_mem_cons] at hgives
  obtain ⟨haddresses, hareas, -⟩ := hgives
  obtain ⟨addresses?, haddresses?, haddresses⟩ := haddresses.items
  obtain ⟨areas?, hareas?, hareas⟩ :=
    hareas.sequence (g := id) fun g hg => GeographicArea.reads (h g hg)
  rw [List.map_id] at hareas
  exact ⟨by simp [decode, hread, haddresses?, haddresses, hareas?, hareas], rfl⟩

end MbsClient
