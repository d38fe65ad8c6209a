import MbsClient.Proofs.Codec.Map
import MbsClient.Proofs.Model.Area
import MbsClient.Proofs.Model.Patching

/-!
# Encoding and decoding undo each other

A document does not show everything: codecs move up to the first free place, and of the sources of
quality of service only the effective one is there. `shown` is what is left of a value. It is what
decoding gives, and it has the same document, so it is where encoding and decoding come to rest.
-/

namespace MbsClient

open Json Number

/-! ## 1. Media information -/

namespace CodecSlots

/-- No place is empty before a filled one. -/
def Packed (c : CodecSlots) : Prop := c.second.isSome = true → c.first.isSome = true

instance (c : CodecSlots) : Decidable c.Packed := inferInstanceAs (Decidable (_ → _))

def shown (c : CodecSlots) : CodecSlots :=
  match c with
  | ⟨none, second⟩ => ⟨second, none⟩
  | c => c

theorem shown_eq_self {c : CodecSlots} (h : c.Packed) : c.shown = c := by
  obtain ⟨_ | a, _ | b⟩ := c
  · rfl
  · exact absurd (h rfl) (by simp)
  · rfl
  · rfl

theorem toList_shown (c : CodecSlots) : c.shown.toList = c.toList := by
  obtain ⟨_ | a, _ | b⟩ := c <;> rfl

theorem ofList_toList (c : CodecSlots) : ofList c.toList = .ok c.shown := by
  obtain ⟨_ | a, _ | b⟩ := c <;> rfl

theorem shown_eq_default {c : CodecSlots} (h : c.toList = []) : c.shown = {} := by
  obtain ⟨_ | a, _ | b⟩ := c
  · rfl
  · cases h
  · cases h
  · cases h

end CodecSlots

-- Records that show the same have the same document.
theorem encode_congr {R : Type} [Record R] {a b : R}
    (h : ∀ m ∈ (Record.members : List (Member R)), m.shown a = m.shown b) :
    encode a = encode b := by
  show Json.record (Member.document Record.members a) =
    Json.record (Member.document Record.members b)
  rw [Member.document, Member.document]
  congr 1
  exact List.map_congr_left fun m hm => congrArg (Prod.mk m.name) (h m hm)

theorem map_encode_congr {α : Type} [Encode α] {f : α → α} (h : ∀ a, encode (f a) = encode a)
    (a? : Option α) : (a?.map f).map encode = a?.map encode := by
  rw [Option.map_map]
  exact Option.map_congr fun a _ => h a

section

variable {σ : Type} [Source σ] [JsonSource σ]

namespace MbsMediaInfo

def shown (i : MbsMediaInfo) : MbsMediaInfo := { i with codecs := i.codecs.shown }

theorem shown_eq_self {i : MbsMediaInfo} (h : i.codecs.Packed) : i.shown = i := by
  rw [shown, CodecSlots.shown_eq_self h]

theorem encode_shown (i : MbsMediaInfo) : encode i.shown = encode i := by
  apply encode_congr
  simp only [Record.members, List.forall_mem_cons]
  refine ⟨rfl, rfl, rfl, ?_, by simp⟩
  show (if i.codecs.shown.toList.isEmpty then none else some (encode i.codecs.shown.toList)) = _
  rw [CodecSlots.toList_shown]
  rfl

theorem reads (i : MbsMediaInfo) : Reads σ i i.shown := by
  obtain ⟨fields, hread, hgives⟩ := Fields.read_record (σ := σ) (by decide) i
  simp only [Record.members, List.forall_mem_cons] at hgives
  obtain ⟨htype, hmax, hmin, hcodecs, -⟩ := hgives
  have hdecode : decode (ofJson (encode i.codecList) : σ) = .ok i.codecs.shown := by
    show ((decode (ofJson (encode i.codecs.toList) : σ) : Decoded (List String)) >>=
      CodecSlots.ofList) = _
    rw [(MbsClient.reads σ i.codecs.toList).decode_encode, Decoded.ok_bind,
      CodecSlots.ofList_toList]
  obtain ⟨slots?, hslots?, hslots⟩ :=
    hcodecs.sequence_as {} (fun hempty => (CodecSlots.shown_eq_default hempty).symm) hdecode
  exact ⟨by simp [decode, hread, htype.optional, hmax.optional, hmin.optional, hslots?, hslots,
    shown], rfl⟩

end MbsMediaInfo

/-! ## 2. Media components -/

namespace MbsMediaComp

def shown (c : MbsMediaComp) : MbsMediaComp :=
  { c with
    mbsMediaInfo := c.mbsMediaInfo.map MbsMediaInfo.shown
    qosRef := if c.mbsMediaInfo.isNone then c.qosRef else none
    mbsQoSReq := if c.mbsMediaInfo.isNone && c.qosRef.isNone then c.mbsQoSReq else none }

theorem encode_shown (c : MbsMediaComp) : encode c.shown = encode c := by
  apply encode_congr
  simp only [Record.members, List.forall_mem_cons]
  refine ⟨rfl, rfl, rfl, map_encode_congr MbsMediaInfo.encode_shown _, ?_, ?_, by simp⟩
  · obtain ⟨num, flows, prio, _ | info, ref, req⟩ := c <;> rfl
  · obtain ⟨num, flows, prio, _ | info, _ | ref, req⟩ := c <;> rfl

theorem reads (c : MbsMediaComp) : Reads σ c c.shown := by
  obtain ⟨fields, hread, hgives⟩ := Fields.read_record (σ := σ) (by decide) c
  simp only [Record.members, List.forall_mem_cons] at hgives
  obtain ⟨hnum, hflows, hprio, hinfo, href, hreq, -⟩ := hgives
  obtain ⟨flows?, hflows?, hflows⟩ := hflows.items
  have hinfo := hinfo.optional_eq fun i _ => i.reads
  exact ⟨by simp [decode, hread, hnum.required, hflows?, hflows, hprio.optional, hinfo,
    href.hidden, hreq.hidden, shown], rfl⟩

-- With one source at most nothing is hidden.
theorem shown_eq_self {c : MbsMediaComp} (hqos : c.AtMostOneQos)
    (hpacked : ∀ i ∈ c.mbsMediaInfo, i.codecs.Packed) : c.shown = c := by
  have hothers : (c.mbsMediaInfo.isNone = false → c.qosRef = none ∧ c.mbsQoSReq = none) ∧
      (c.qosRef.isNone = false → c.mbsQoSReq = none) := by
    unfold AtMostOneQos at hqos
    cases hinfo : c.mbsMediaInfo <;> cases href : c.qosRef <;> cases hreq : c.mbsQoSReq <;>
      simp [hinfo, href, hreq] at hqos ⊢
  have hinfo : c.mbsMediaInfo.map MbsMediaInfo.shown = c.mbsMediaInfo := by
    cases hinfo : c.mbsMediaInfo with
    | none => rfl
    | some i => exact congrArg some (MbsMediaInfo.shown_eq_self (hpacked i hinfo))
  have href : (if c.mbsMediaInfo.isNone then c.qosRef else none) = c.qosRef := by
    split
    · rfl
    · rename_i hsome
      exact (hothers.1 (Bool.not_eq_true _ ▸ hsome)).1.symm
  have hreq : (if c.mbsMediaInfo.isNone && c.qosRef.isNone then c.mbsQoSReq else none) =
      c.mbsQoSReq := by
    split
    · rfl
    · rename_i hsome
      rw [Bool.and_eq_true, not_and_or, Bool.not_eq_true, Bool.not_eq_true] at hsome
      rcases hsome with hsome | hsome
      · exact (hothers.1 hsome).2.symm
      · exact (hothers.2 hsome).symm
  rw [shown, hinfo, href, hreq]

end MbsMediaComp

end

/-! ## 3. Sessions and subscriptions -/

namespace MbsServiceInfo

def shown (s : MbsServiceInfo) : MbsServiceInfo :=
  { s with mbsMediaComps := s.mbsMediaComps.map fun _ c => c.shown }

theorem encode_shown (s : MbsServiceInfo) : encode s.shown = encode s := by
  have hcomps : encode s.shown.mbsMediaComps = encode s.mbsMediaComps := by
    show Json.ofMembers ((s.mbsMediaComps.entries.map fun e => (e.1, e.2.shown)).map fun e =>
      (MapKey.name e.1, encode e.2)) = _
    rw [List.map_map]
    exact congrArg Json.ofMembers (List.map_congr_left fun e _ =>
      congrArg (Prod.mk (MapKey.name e.1)) (MbsMediaComp.encode_shown e.2))
  apply encode_congr
  simp only [Record.members, List.forall_mem_cons]
  exact ⟨congrArg some hcomps, rfl, rfl, rfl, by simp⟩

theorem reads (s : MbsServiceInfo) : Reads Json s s.shown := by
  obtain ⟨fields, hread, hgives⟩ := Fields.read_record (σ := Json) (by decide) s
  simp only [Record.members, List.forall_mem_cons] at hgives
  obtain ⟨hcomps, hprio, happ, hambr, -⟩ := hgives
  have hcomps := hcomps.always (reads_map fun _ c _ => c.reads)
  exact ⟨by simp [decode, hread, hcomps, hprio.optional, happ.optional, hambr.optional, shown],
    rfl⟩

/-- Every media information has its codecs in the first places. -/
def Packed (s : MbsServiceInfo) : Prop :=
  ∀ e ∈ s.mbsMediaComps.entries, ∀ i ∈ e.2.mbsMediaInfo, i.codecs.Packed

instance (s : MbsServiceInfo) : Decidable s.Packed :=
  inferInstanceAs (Decidable (∀ e ∈ _, ∀ i ∈ _, _))

theorem shown_eq_self {s : MbsServiceInfo} (hqos : s.AtMostOneQos) (hpacked : s.Packed) :
    s.shown = s := by
  have hcomps : s.mbsMediaComps.map (fun _ c => c.shown) = s.mbsMediaComps := by
    apply SortedMap.ext_entries
    exact (List.map_congr_left fun e he => congrArg (Prod.mk e.1)
      (MbsMediaComp.shown_eq_self (hqos e he) (hpacked e he))).trans (List.map_id _)
  rw [shown, hcomps]

end MbsServiceInfo

namespace MbsSession

def shown (s : MbsSession) : MbsSession :=
  { s with mbsServInfo := s.mbsServInfo.map MbsServiceInfo.shown }

theorem encode_shown (s : MbsSession) : encode s.shown = encode s := by
  apply encode_congr
  simp only [Record.members, List.forall_mem_cons]
  exact ⟨rfl, rfl, rfl, rfl, rfl, rfl, rfl, rfl, map_encode_congr MbsServiceInfo.encode_shown _,
    rfl, rfl, rfl, rfl, by simp⟩

theorem reads {s : MbsSession} (h : s.Finite) : Reads Json s s.shown := by
  obtain ⟨fields, hread, hgives⟩ := Fields.read_record (σ := Json) (by decide) s
  simp only [Record.members, List.forall_mem_cons] at hgives
  obtain ⟨hid, halloc, htype, hdependent, harea, hingress, hservice, hext, hinfo, hfsa, hassociated,
    hstart, hend, -⟩ := hgives
  obtain ⟨alloc?, halloc?, halloc⟩ := halloc.flag
  obtain ⟨dependent?, hdependent?, hdependent⟩ := hdependent.flag
  obtain ⟨ingress?, hingress?, hingress⟩ := hingress.flag
  have hext := hext.optional_eq (g := id) fun a ha => ExtMbsServiceArea.reads (h a ha)
  have hinfo := hinfo.optional_eq fun i _ => i.reads
  have hdecode : decode (encode s.mbsFsaIdList.ids) = .ok s.mbsFsaIdList := by
    show ((decode (ofJson (encode s.mbsFsaIdList.ids) : Json) : Decoded (List FsaId)) >>= _) = _
    rw [(MbsClient.reads Json s.mbsFsaIdList.ids).decode_encode]
    rfl
  obtain ⟨fsa?, hfsa?, hfsa⟩ := hfsa.sequence_as {}
    (fun hempty => congrArg FsaIdList.mk hempty.symm) hdecode
  exact ⟨by simp [decode, hread, hid.required, halloc?, halloc, htype.required, hdependent?,
    hdependent, harea.optional, hingress?, hingress, hservice.optional, hext, hinfo, hfsa?, hfsa,
    hassociated.optional, hstart.optional, hend.optional, shown], rfl⟩

/-- Every media information of the session has its codecs in the first places. -/
def Packed (s : MbsSession) : Prop := ∀ info ∈ s.mbsServInfo, info.Packed

instance (s : MbsSession) : Decidable s.Packed := inferInstanceAs (Decidable (∀ info ∈ _, _))

theorem shown_eq_self {s : MbsSession} (hqos : s.AtMostOneQos) (hpacked : s.Packed) :
    s.shown = s := by
  have hinfo : s.mbsServInfo.map MbsServiceInfo.shown = s.mbsServInfo := by
    cases hinfo : s.mbsServInfo with
    | none => rfl
    | some info =>
      exact congrArg some (MbsServiceInfo.shown_eq_self (hqos info hinfo) (hpacked info hinfo))
  rw [shown, hinfo]

end MbsSession

/-- **Encoding and decoding undo each other.** A session of finite numbers whose components have one
source of quality of service at most, and whose codecs stand in the first places, is read back as it
was, and so is every subscription. Whatever a document has been read as, the document that is
written for it can be read again, and what is read has the same document. -/
theorem documents_round_trip :
    (∀ s : MbsSession, s.Finite → s.AtMostOneQos → s.Packed → decode (encode s) = .ok s) ∧
    (∀ s : MbsSessionSubscription, decode (encode s) = .ok s) ∧
    (∀ (σ : Type) [Source σ] (d : σ) (s : MbsSession), decode d = .ok s → s.Finite →
      ∃ s' : MbsSession, decode (encode s) = .ok s' ∧ encode s' = encode s) ∧
    ∀ (σ : Type) [Source σ] (d : σ) (s : MbsSessionSubscription), decode d = .ok s →
      ∃ s' : MbsSessionSubscription, decode (encode s) = .ok s' ∧ encode s' = encode s := by
  refine ⟨fun s hfinite hqos hpacked => ?_, fun s => (reads Json s).decode_encode,
    fun _ _ _ s _ hfinite => ⟨s.shown, (MbsSession.reads hfinite).decode_encode, s.encode_shown⟩,
    fun _ _ _ s _ => ⟨s, (reads Json s).decode_encode, rfl⟩⟩
  have hread := (MbsSession.reads hfinite).decode_encode
  rwa [MbsSession.shown_eq_self hqos hpacked] at hread

/-- A broadcast in a circle of 100.5 m, with two codecs. -/
def circled : MbsSession :=
  { serviceType := .broadcast
    extMbsServiceArea := some
      { geographicAreaList := [.circle
          { point := ⟨⟨0x402ACCCCCCCCCCCD⟩, ⟨0x404A4147AE147AE1⟩⟩, uncertainty := ⟨0x42C90000⟩ }] }
    mbsServInfo := some
      { mbsMediaComps := .ofList
          [(7, { mbsMedCompNum := 7,
                 mbsMediaInfo := some { codecs := ⟨some "AMR", some "EVS"⟩ } })] } }

/-- A component with two sources of quality of service. -/
def twoSources : Json :=
  .object [("mbsSessionId", .object []), ("serviceType", .string "MULTICAST"),
    ("mbsServInfo", .object [("mbsMediaComps", .object [("1", .object
      [("mbsMedCompNum", .int 1), ("qosRef", .string "gold"),
        ("mbsQoSReq", .object [("5qi", .int 9)])])])])]

theorem documents_round_trip_circled :
    (circled.Finite ∧ circled.AtMostOneQos ∧ circled.Packed ∧
      decode (encode circled) = .ok circled) ∧
    ∃ s : MbsSession, decode twoSources = .ok s ∧ s.Finite ∧
      ∃ s' : MbsSession, decode (encode s) = .ok s' ∧ encode s' = encode s := by
  have hfinite : circled.Finite := by decide
  have hqos : circled.AtMostOneQos := by decide
  have hpacked : circled.Packed := by decide
  exact ⟨⟨hfinite, hqos, hpacked, documents_round_trip.1 circled hfinite hqos hpacked⟩, _, rfl,
    by decide, documents_round_trip.2.2.1 Json twoSources _ rfl (by decide)⟩

end MbsClient
