import MbsClient.Codec.Constant
import MbsClient.Patch.Record
import MbsClient.Proofs.Json.Record

/-!
# Decoding what has been encoded

A JSON value that an encoder has written reads the same from every source it is put into, as a
document of its own or settled beforehand. A record has each of its members under its name there,
so a decoder that asks for them by name gets what the encoder has shown.
-/

namespace MbsClient

open Json Number

/-! ## 1. Sources of encoded values -/

/-- Sources into which JSON values can be put, with the answers that they give there. -/
class JsonSource (σ : Type) [Source σ] where
  ofJson : Json → σ
  isNull_ofJson : ∀ d, Source.isNull (ofJson d) = d.isNull
  bool?_ofJson : ∀ b, Source.bool? (ofJson (.bool b)) = some b
  int?_ofJson : ∀ n, Source.int? (ofJson (.int n)) = some n
  float?_ofJson : ∀ x, Source.float? (ofJson (.float x)) = some x
  text?_ofJson : ∀ s, Source.text? (ofJson (.string s)) = some s
  word?_ofJson : ∀ s, Source.word? (ofJson (.string s)) = some s
  items?_ofJson : ∀ items, Source.items? (ofJson (.array items)) = some (items.map ofJson)
  fields?_ofJson : ∀ names members, Source.fields? names (ofJson (.object members)) =
    some ⟨members.map fun e => (e.1, ofJson e.2), false⟩
  settle?_ofJson : ∀ d, Source.settle? (ofJson d) = some (Settled.ofJson d)

export JsonSource (ofJson)

instance : JsonSource Json where
  ofJson := id
  isNull_ofJson _ := rfl
  bool?_ofJson _ := rfl
  int?_ofJson _ := rfl
  float?_ofJson _ := rfl
  text?_ofJson _ := rfl
  word?_ofJson _ := rfl
  items?_ofJson items := congrArg some (List.map_id items).symm
  fields?_ofJson _ members := by
    show some (Fields.mk members false) = _
    simp
  settle?_ofJson _ := rfl

namespace Settled

theorem ofItems_eq_map (items : List Json) : Settled.ofItems items = items.map Settled.ofJson := by
  induction items with
  | nil => rfl
  | cons v rest ih => rw [Settled.ofItems, ih, List.map_cons]

theorem ofMembers_eq_map (members : List (String × Json)) :
    Settled.ofMembers members =
      members.map fun e => (some (.name e.1), Settled.ofJson e.2) := by
  induction members with
  | nil => rfl
  | cons e rest ih => rw [Settled.ofMembers, ih, List.map_cons]

-- Members that all have names keep them.
theorem named?_ofMembers (names : List String) (members : List (String × Json)) :
    named? names (Settled.ofMembers members) =
      some (members.map fun e => (e.1, Settled.ofJson e.2)) := by
  have hlabels : (Settled.ofMembers members).mapM (fun m => m.1.map (·, m.2)) =
      some (members.map fun e => (Label.name e.1, Settled.ofJson e.2)) := by
    rw [ofMembers_eq_map]
    induction members with
    | nil => rfl
    | cons e rest ih => simp [List.mapM_cons, ih]
  show (List.mapM _ _ >>= _) = _
  rw [hlabels]
  refine congrArg some ?_
  rw [List.filterMap_map]
  exact congrFun List.filterMap_eq_map members

instance : JsonSource Settled where
  ofJson := Settled.ofJson
  isNull_ofJson d := by cases d <;> simp [Settled.ofJson, Source.isNull, Json.isNull]
  bool?_ofJson _ := rfl
  int?_ofJson _ := rfl
  float?_ofJson _ := rfl
  text?_ofJson _ := rfl
  word?_ofJson _ := rfl
  items?_ofJson items := congrArg some (ofItems_eq_map items)
  fields?_ofJson names members := by
    show (named? names (Settled.ofMembers members)).map _ = _
    rw [named?_ofMembers]
    rfl
  settle?_ofJson _ := rfl

end Settled

/-! ## 2. Values that are read back -/

/-- What is written for `a` is read as `b`, and is not what stands for an absent value. -/
structure Reads (σ : Type) [Source σ] [JsonSource σ] {α : Type} [Encode α] [Decode α] (a b : α) :
    Prop where
  decode_encode : decode (ofJson (encode a) : σ) = .ok b
  isNull_encode : (encode a).isNull = false

/-- Types of which every value is read back. -/
class Readable (α : Type) [Encode α] [Decode α] : Prop where
  reads : ∀ (σ : Type) [Source σ] [JsonSource σ] (a : α), Reads σ a a

export Readable (reads)

-- Values that are told apart by what is read are told apart by their documents.
theorem eq_of_encode_eq {α : Type} [Encode α] [Decode α] [Readable α] {a b : α}
    (h : encode a = encode b) : a = b := by
  have ha := (reads Json a).decode_encode
  rw [h, (reads Json b).decode_encode] at ha
  exact (Except.ok.inj ha).symm

@[simp] theorem Decoded.ok_bind {α β : Type} (a : α) (f : α → Decoded β) :
    ((.ok a : Decoded α) >>= f) = f a := rfl

@[simp] theorem Decoded.map_ok {α β : Type} (f : α → β) (a : α) :
    (.ok a : Decoded α).map f = .ok (f a) := rfl

@[simp] theorem needed_some {α : Type} (a : α) : needed (some a) = .ok a := rfl

theorem Decoded.mapM_eq_ok {α β : Type} {f : α → Decoded β} {g : α → β} {as : List α}
    (h : ∀ a ∈ as, f a = .ok (g a)) : as.mapM f = .ok (as.map g) := by
  induction as with
  | nil => rfl
  | cons a as ih =>
    rw [List.mapM_cons, h a List.mem_cons_self, Decoded.ok_bind,
      ih fun a' ha' => h a' (List.mem_cons_of_mem _ ha')]
    rfl

section

variable {σ : Type} [Source σ] [JsonSource σ] {α : Type} [Encode α] [Decode α]

theorem Reads.list {as : List α} {g : α → α} (h : ∀ a ∈ as, Reads σ a (g a)) :
    Reads σ as (as.map g) where
  decode_encode := by
    show (needed (Source.items? (ofJson (.array (as.map encode)))) >>= _) = _
    rw [JsonSource.items?_ofJson, needed_some, Decoded.ok_bind, List.map_map,
      List.mapM_map]
    exact Decoded.mapM_eq_ok fun a ha => (h a ha).decode_encode
  isNull_encode := rfl

instance [Readable α] : Readable (List α) where
  reads σ _ _ as := by
    have hlist := Reads.list (σ := σ) (g := id) fun a (_ : a ∈ as) => reads σ a
    rwa [List.map_id] at hlist

/-! ## 3. Records -/

/-- The value that is given under `name`. -/
def Fields.Gives (fields : Fields σ) (name : String) (v : Option Json) : Prop :=
  fields.given.find? (fun m => m.1 = name) = v.map fun d => (name, ofJson d)

theorem Fields.gives_get? (entries : List (String × Json)) (listed : Bool) (name : String) :
    Fields.Gives (σ := σ) ⟨entries.map fun e => (e.1, ofJson e.2), listed⟩ name
      (Entries.get? name entries) := by
  unfold Fields.Gives
  induction entries with
  | nil => rfl
  | cons e rest ih =>
    rw [List.map_cons, List.find?_cons, Entries.get?_cons]
    by_cases h : name = e.1
    · simp [h]
    · simpa [h, Ne.symm h] using ih

-- No name is given twice by an object in sorted form.
theorem Fields.read_object {entries : List (String × Json)} (hs : Entries.Sorted entries) :
    ∃ fields : Fields σ, (∀ names, Fields.read names (ofJson (.object entries) : σ) = .ok fields) ∧
      ∀ name, fields.Gives name (Entries.get? name entries) := by
  refine ⟨_, fun names => ?_, Fields.gives_get? entries false⟩
  have honce : ∀ name, ((entries.map fun e => (e.1, (ofJson e.2 : σ))).filter
      fun m => m.1 = name).length ≤ 1 := by
    intro name
    have hnodup := Entries.nodup_keys hs
    rw [← List.countP_eq_length_filter, List.countP_map]
    have hcount := List.nodup_iff_count.1 hnodup name
    rw [List.count, List.countP_map] at hcount
    exact hcount
  unfold Fields.read
  rw [JsonSource.fields?_ofJson]
  simp [honce]

theorem Fields.read_members (members : List (String × Option Json))
    (hn : (members.map Prod.fst).Nodup) :
    ∃ fields : Fields σ, (∀ names, Fields.read names (ofJson (.record members)) = .ok fields) ∧
      ∀ e ∈ members, fields.Gives e.1 e.2 := by
  obtain ⟨fields, hread, hgives⟩ := Fields.read_object (σ := σ) (sorted_recordEntries members)
  refine ⟨fields, hread, fun e he => ?_⟩
  rw [← get?_recordEntries hn he]
  exact hgives e.1

theorem Fields.read_record {R : Type} [Record R]
    (hn : ((Record.members : List (Member R)).map Member.name).Nodup) (r : R) :
    ∃ fields : Fields σ, (∀ names, Fields.read names (ofJson (encode r)) = .ok fields) ∧
      ∀ m ∈ Record.members, fields.Gives m.name (m.shown r) := by
  have hnames : ((Member.document Record.members r).map Prod.fst).Nodup := by
    simpa [Member.document, Function.comp_def] using hn
  obtain ⟨fields, hread, hgives⟩ := Fields.read_members (σ := σ) _ hnames
  exact ⟨fields, hread, fun m hm => hgives _ (List.mem_map_of_mem hm)⟩

namespace Fields.Gives

variable {fields : Fields σ} {name : String}

omit [Encode α] in
theorem member?_none (h : fields.Gives name none) :
    fields.member? name = (.ok none : Decoded (Option α)) := by
  rw [Fields.member?, h]
  rfl

theorem member?_some {a b : α} (h : fields.Gives name (some (encode a))) (hr : Reads σ a b) :
    fields.member? name = .ok (some b) := by
  rw [Fields.member?, h]
  show (decode (ofJson (encode a))).map some = _
  rw [hr.decode_encode]
  rfl

theorem optional_map {a? : Option α} {g : α → α} (h : fields.Gives name (a?.map encode))
    (hr : ∀ a ∈ a?, Reads σ a (g a)) : fields.optional name = .ok (a?.map g) := by
  rw [Fields.optional, h]
  cases a? with
  | none => rfl
  | some a =>
    show (if Source.isNull (ofJson (encode a) : σ) then _ else _) = _
    rw [JsonSource.isNull_ofJson, (hr a rfl).isNull_encode, (hr a rfl).decode_encode]
    rfl

variable {R : Type} {r : R}

theorem always [Diff α] {get : R → α} {b : α}
    (h : fields.Gives (Member.always name get).name ((Member.always name get).shown r))
    (hr : Reads σ (get r) b) : fields.member? name = .ok (some b) :=
  member?_some h hr

theorem optional_eq [Diff α] {get : R → Option α} {g : α → α}
    (h : fields.Gives (Member.optional name get).name ((Member.optional name get).shown r))
    (hr : ∀ a ∈ get r, Reads σ a (g a)) : fields.optional name = .ok ((get r).map g) :=
  optional_map h hr

-- A list is given unless it is empty; the decoder puts in `b₀` then.
omit [Decode α] in
theorem sequence_as {β : Type} [Decode β] [BEq α] [Diff α] {get : R → List α} {b : β} (b₀ : β)
    (h : fields.Gives (Member.sequence name get).name ((Member.sequence name get).shown r))
    (hempty : get r = [] → b₀ = b) (hdecode : decode (ofJson (encode (get r)) : σ) = .ok b) :
    ∃ b? : Option β, fields.member? name = .ok b? ∧ b?.getD b₀ = b := by
  have hgiven : fields.Gives name
    (if (get r).isEmpty then none else some (encode (get r))) := h
  split at hgiven
  · rename_i has
    exact ⟨none, member?_none hgiven, hempty (List.isEmpty_iff.1 has)⟩
  · refine ⟨some b, ?_, rfl⟩
    rw [Fields.member?, hgiven]
    show (decode (ofJson (encode (get r)))).map some = _
    rw [hdecode]
    rfl

theorem sequence [BEq α] [Diff α] {get : R → List α} {g : α → α}
    (h : fields.Gives (Member.sequence name get).name ((Member.sequence name get).shown r))
    (hr : ∀ a ∈ get r, Reads σ a (g a)) :
    ∃ as? : Option (List α), fields.member? name = .ok as? ∧ as?.getD [] = (get r).map g :=
  h.sequence_as _ (fun hempty => by rw [hempty, List.map_nil]) (Reads.list hr).decode_encode

theorem flag {get : R → Bool}
    (h : fields.Gives (Member.flag name get).name ((Member.flag name get).shown r)) :
    ∃ b? : Option Bool, fields.member? name = .ok b? ∧ b?.getD false = get r := by
  unfold Member.flag at h
  dsimp only at h
  cases hget : get r with
  | false =>
    rw [hget] at h
    exact ⟨none, member?_none h, rfl⟩
  | true =>
    rw [hget] at h
    have htrue : Reads σ true true := ⟨congrArg needed (JsonSource.bool?_ofJson true), rfl⟩
    exact ⟨some true, member?_some h htrue, rfl⟩

/-! The same for types of which every value is read back. -/

variable [Readable α]

theorem required [Diff α] {get : R → α}
    (h : fields.Gives (Member.always name get).name ((Member.always name get).shown r)) :
    fields.member? name = .ok (some (get r)) :=
  h.always (reads σ (get r))

theorem optional [Diff α] {get : R → Option α}
    (h : fields.Gives (Member.optional name get).name ((Member.optional name get).shown r)) :
    fields.optional name = .ok (get r) := by
  rw [h.optional_eq (g := id) fun a _ => reads σ a, Option.map_id]
  rfl

theorem optional_given (a? : Option α) (h : fields.Gives name (a?.map encode)) :
    fields.optional name = .ok a? := by
  rw [h.optional_map (g := id) fun a _ => reads σ a, Option.map_id]
  rfl

-- What is not visible is not given.
theorem hidden [Diff α] {visible : R → Bool} {get : R → Option α}
    (h : fields.Gives (Member.hidden name visible get).name
      ((Member.hidden name visible get).shown r)) :
    fields.optional name = .ok (if visible r then get r else none) := by
  have hgiven : fields.Gives name ((if visible r then get r else none).map encode) := by
    simp only [Member.hidden] at h
    split at h <;> simp_all
  exact hgiven.optional_given _

theorem items [BEq α] [Diff α] {get : R → List α}
    (h : fields.Gives (Member.sequence name get).name ((Member.sequence name get).shown r)) :
    ∃ as? : Option (List α), fields.member? name = .ok as? ∧ as?.getD [] = get r := by
  obtain ⟨as?, has, hget⟩ := h.sequence (g := id) fun a _ => reads σ a
  exact ⟨as?, has, hget.trans (List.map_id _)⟩

end Fields.Gives

end

end MbsClient
