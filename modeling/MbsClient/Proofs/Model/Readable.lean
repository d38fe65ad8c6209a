import MbsClient.Model.Subscription
import MbsClient.Proofs.Codec.Source
import MbsClient.Proofs.Data.SortedMap
import MbsClient.Proofs.Model.Rates
import MbsClient.Proofs.Model.Texts
import MbsClient.Proofs.Net.Address
import MbsClient.Proofs.Time.Instant

/-!
# Values that are read back as they were

These are all types of the model whose documents show all of a value: no numbers of floating point,
no places that may be left empty, no members hidden by others.
-/

namespace MbsClient

open Json Net Time

/-! ## 1. Values without parts -/

section

variable {σ : Type} [Source σ] [JsonSource σ]

theorem decode_string (s : String) : (decode (ofJson (.string s) : σ) : Decoded String) = .ok s :=
  congrArg needed (JsonSource.text?_ofJson s)

theorem decodeNat_int {bits n : Nat} (h : n < 2 ^ bits) :
    decodeNat bits (ofJson (.int n) : σ) = .ok n := by
  have hbits : (n : Int) < (Nat.pow 2 bits : Nat) := Int.ofNat_lt.2 h
  simp only [decodeNat, JsonSource.int?_ofJson]
  rw [if_pos ⟨Int.natCast_nonneg n, hbits⟩, Int.toNat_natCast]

theorem decodeInt_int {bits : Nat} {n : Int} (hlow : -(Nat.pow 2 (bits - 1) : Int) ≤ n)
    (hhigh : n < (Nat.pow 2 (bits - 1) : Int)) :
    decodeInt bits (ofJson (.int n) : σ) = .ok n := by
  simp only [decodeInt, JsonSource.int?_ofJson]
  rw [if_pos ⟨hlow, hhigh⟩]

-- A constant is found under its name.
theorem reads_constant {α : Type} [Constant α]
    (h : ∀ a : α, (Constant.all.map fun a => (Constant.name a, a)).find?
      (fun w => w.1 = Constant.name a) = some (Constant.name a, a)) (a : α) : Reads σ a a where
  decode_encode := by
    show decodeWord _ (ofJson (.string (Constant.name a))) = _
    rw [decodeWord, JsonSource.word?_ofJson, needed_some, Decoded.ok_bind, h a]
    rfl
  isNull_encode := rfl

-- A value that is written as a text.
theorem reads_text {α : Type} [Encode α] [Decode α] {a : α} {s : String} {read : String → Decoded α}
    (hencode : encode a = .string s)
    (hdecode : ∀ d : σ, decode d = (decode d : Decoded String) >>= read)
    (hread : read s = .ok a) : Reads σ a a where
  decode_encode := by rw [hencode, hdecode, decode_string, Decoded.ok_bind, hread]
  isNull_encode := by rw [hencode]; rfl

end

instance : Readable String := ⟨fun _ _ _ s => ⟨decode_string s, rfl⟩⟩

instance : Readable UInt8 where
  reads _ _ _ n := by
    refine ⟨?_, rfl⟩
    show (decodeNat 8 (ofJson (.int n.toNat))).map UInt8.ofNat = _
    rw [decodeNat_int n.toNat_lt, Decoded.map_ok, UInt8.ofNat_toNat]

instance : Readable UInt16 where
  reads _ _ _ n := by
    refine ⟨?_, rfl⟩
    show (decodeNat 16 (ofJson (.int n.toNat))).map UInt16.ofNat = _
    rw [decodeNat_int n.toNat_lt, Decoded.map_ok, UInt16.ofNat_toNat]

instance : Readable UInt32 where
  reads _ _ _ n := by
    refine ⟨?_, rfl⟩
    show (decodeNat 32 (ofJson (.int n.toNat))).map UInt32.ofNat = _
    rw [decodeNat_int n.toNat_lt, Decoded.map_ok, UInt32.ofNat_toNat]

instance : Readable Int32 where
  reads _ _ _ n := by
    refine ⟨?_, rfl⟩
    show (decodeInt 32 (ofJson (.int n.toInt))).map Int32.ofInt = _
    rw [decodeInt_int n.le_toInt n.toInt_lt, Decoded.map_ok, Int32.ofInt_toInt]

instance : Readable MediaType := ⟨fun _ _ _ => reads_constant (by rintro ⟨⟩ <;> rfl)⟩
instance : Readable PreemptionCapability := ⟨fun _ _ _ => reads_constant (by rintro ⟨⟩ <;> rfl)⟩
instance : Readable PreemptionVulnerability :=
  ⟨fun _ _ _ => reads_constant (by rintro ⟨⟩ <;> rfl)⟩
instance : Readable MbsSessionType := ⟨fun _ _ _ => reads_constant (by rintro ⟨⟩ <;> rfl)⟩
instance : Readable MbsSessionEventType := ⟨fun _ _ _ => reads_constant (by rintro ⟨⟩ <;> rfl)⟩

instance {k : IdentifierKind} [k.Printed] : Readable (Identifier k) :=
  ⟨fun _ _ _ i => reads_text rfl (fun _ => rfl) (congrArg (Except.mapError _) i.parse_text)⟩

instance : Readable BitRate :=
  ⟨fun _ _ _ r => reads_text rfl (fun _ => rfl) (congrArg (Except.mapError _) r.parse_text)⟩

instance : Readable ReservationPriority :=
  ⟨fun _ _ _ p => reads_text rfl (fun _ => rfl) p.parse_text⟩

instance : Readable Instant :=
  ⟨fun _ _ _ t => reads_text rfl (fun _ => rfl) (congrArg needed t.parse?_text)⟩

instance : Readable Ipv4 :=
  ⟨fun _ _ _ ip => reads_text rfl (fun _ => rfl) (congrArg needed ip.parse?_text)⟩

instance : Readable Ipv6 :=
  ⟨fun _ _ _ ip => reads_text rfl (fun _ => rfl) (congrArg needed ip.parse?_text)⟩

/-! ## 2. Records -/

instance : Readable PlmnId where
  reads σ _ _ r := by
    obtain ⟨fields, hread, hgives⟩ := Fields.read_record (σ := σ) (by decide) r
    simp only [Record.members, List.forall_mem_cons] at hgives
    obtain ⟨hmcc, hmnc, -⟩ := hgives
    exact ⟨by simp [decode, hread, hmcc.required, hmnc.required], rfl⟩

instance : Readable Tmgi where
  reads σ _ _ r := by
    obtain ⟨fields, hread, hgives⟩ := Fields.read_record (σ := σ) (by decide) r
    simp only [Record.members, List.forall_mem_cons] at hgives
    obtain ⟨hservice, hplmn, -⟩ := hgives
    exact ⟨by simp [decode, hread, hservice.required, hplmn.required], rfl⟩

instance : Readable Arp where
  reads σ _ _ r := by
    obtain ⟨fields, hread, hgives⟩ := Fields.read_record (σ := σ) (by decide) r
    simp only [Record.members, List.forall_mem_cons] at hgives
    obtain ⟨hlevel, hcap, hvuln, -⟩ := hgives
    exact ⟨by simp [decode, hread, hlevel.required, hcap.required, hvuln.required], rfl⟩

instance : Readable MbsQosReq where
  reads σ _ _ r := by
    obtain ⟨fields, hread, hgives⟩ := Fields.read_record (σ := σ) (by decide) r
    simp only [Record.members, List.forall_mem_cons] at hgives
    obtain ⟨hqi, hguar, hmax, hwindow, harp, -⟩ := hgives
    exact ⟨by simp [decode, hread, hqi.required, hguar.optional, hmax.optional, hwindow.optional,
      harp.optional], rfl⟩

instance : Readable Tai where
  reads σ _ _ r := by
    obtain ⟨fields, hread, hgives⟩ := Fields.read_record (σ := σ) (by decide) r
    simp only [Record.members, List.forall_mem_cons] at hgives
    obtain ⟨hplmn, htac, hnid, -⟩ := hgives
    exact ⟨by simp [decode, hread, hplmn.required, htac.required, hnid.optional], rfl⟩

instance : Readable Ncgi where
  reads σ _ _ r := by
    obtain ⟨fields, hread, hgives⟩ := Fields.read_record (σ := σ) (by decide) r
    simp only [Record.members, List.forall_mem_cons] at hgives
    obtain ⟨hplmn, hcell, hnid, -⟩ := hgives
    exact ⟨by simp [decode, hread, hplmn.required, hcell.required, hnid.optional], rfl⟩

instance : Readable NcgiTai where
  reads σ _ _ r := by
    obtain ⟨fields, hread, hgives⟩ := Fields.read_record (σ := σ) (by decide) r
    simp only [Record.members, List.forall_mem_cons] at hgives
    obtain ⟨htai, hcells, -⟩ := hgives
    exact ⟨by simp [decode, hread, htai.required, hcells.required], rfl⟩

instance : Readable MbsServiceArea where
  reads σ _ _ r := by
    obtain ⟨fields, hread, hgives⟩ := Fields.read_record (σ := σ) (by decide) r
    simp only [Record.members, List.forall_mem_cons] at hgives
    obtain ⟨hncgis, htais, -⟩ := hgives
    obtain ⟨ncgis?, hncgis?, hncgis⟩ := hncgis.items
    obtain ⟨tais?, htais?, htais⟩ := htais.items
    exact ⟨by simp [decode, hread, hncgis?, htais?, hncgis, htais], rfl⟩

instance : Readable MbsSessionEvent where
  reads σ _ _ r := by
    obtain ⟨fields, hread, hgives⟩ := Fields.read_record (σ := σ) (by decide) r
    simp only [Record.members, List.forall_mem_cons] at hgives
    obtain ⟨htype, -⟩ := hgives
    exact ⟨by simp [decode, hread, htype.required], rfl⟩

/-! ## 3. Identities -/

section

variable {σ : Type} [Source σ] [JsonSource σ]

-- The member of the other family is not there.
theorem decodeAddress_encodeAddress (a : Address) :
    decodeAddress (ofJson (encodeAddress a) : σ) = .ok (some a) := by
  cases a with
  | v4 ip =>
    obtain ⟨fields, hread, hgives⟩ := Fields.read_members (σ := σ)
      [("ipv4Addr", some (encode ip)), ("ipv6Addr", none)] (by simp)
    simp only [List.forall_mem_cons] at hgives
    obtain ⟨hv4, hv6, -⟩ := hgives
    have hfour : fields.optional "ipv4Addr" = .ok (some ip) :=
      hv4.optional_given (some ip)
    have hsix : fields.optional "ipv6Addr" = .ok (none : Option Ipv6) :=
      hv6.optional_given none
    show (Fields.read _ (ofJson (.record [("ipv4Addr", some (encode ip)), ("ipv6Addr", none)])) >>=
      _) = _
    simp [hread, hfour, hsix]
  | v6 ip =>
    obtain ⟨fields, hread, hgives⟩ := Fields.read_members (σ := σ)
      [("ipv4Addr", none), ("ipv6Addr", some (encode ip))] (by simp)
    simp only [List.forall_mem_cons] at hgives
    obtain ⟨hv4, hv6, -⟩ := hgives
    have hfour : fields.optional "ipv4Addr" = .ok (none : Option Ipv4) :=
      hv4.optional_given none
    have hsix : fields.optional "ipv6Addr" = .ok (some ip) :=
      hv6.optional_given (some ip)
    show (Fields.read _ (ofJson (.record [("ipv4Addr", none), ("ipv6Addr", some (encode ip))])) >>=
      _) = _
    simp [hread, hfour, hsix]

theorem Ssm.address?_eq {fields : Fields σ} {name : String} {a : Address}
    (h : fields.Gives name (some (encodeAddress a))) :
    Ssm.instDecode.address? fields name = .ok (some (some a)) := by
  rw [Ssm.instDecode.address?, h]
  show (decodeAddress (ofJson (encodeAddress a))).map some = _
  rw [decodeAddress_encodeAddress]
  rfl

theorem Ssm.ofAddresses_eq (s : Ssm) : Ssm.ofAddresses s.source s.dest = .ok s := by
  rw [Ssm.ofAddresses, dif_pos s.same_family, dif_pos s.dest_multicast]

end

instance : Readable Ssm where
  reads σ _ _ s := by
    obtain ⟨fields, hread, hgives⟩ := Fields.read_members (σ := σ)
      [("sourceIpAddr", some (encodeAddress s.source)),
        ("destIpAddr", some (encodeAddress s.dest))] (by simp)
    simp only [List.forall_mem_cons] at hgives
    obtain ⟨hsource, hdest, -⟩ := hgives
    refine ⟨?_, rfl⟩
    show (Fields.read _ (ofJson (.record _)) >>= _) = _
    rw [hread]
    simp [Ssm.address?_eq hsource, Ssm.address?_eq hdest, s.ofAddresses_eq, Except.mapError]

instance : Readable MbsSessionId where
  reads σ _ _ r := by
    obtain ⟨fields, hread, hgives⟩ := Fields.read_record (σ := σ) (by decide) r
    simp only [Record.members, List.forall_mem_cons] at hgives
    obtain ⟨htmgi, hssm, -⟩ := hgives
    exact ⟨by simp [decode, hread, htmgi.optional, hssm.optional], rfl⟩

/-! ## 4. Civic addresses -/

-- The elements that are there, put in one after the other.
theorem CivicAddress.ofList_texts (a : CivicAddress) :
    SortedMap.ofList
      ((CivicElement.all.map fun e => (a.get? e).map (e, ·)).filterMap id) = a.elements := by
  have htexts : (CivicElement.all.map fun e => (a.get? e).map (e, ·)).filterMap id =
      Entries.present (CivicElement.all.map fun e => (e, a.get? e)) := by
    simp [Entries.present, List.filterMap_map]
  have hn : ((CivicElement.all.map fun e => (e, a.get? e)).map Prod.fst).Nodup := by
    simpa [Function.comp_def] using (by decide : CivicElement.all.Nodup)
  apply SortedMap.ext_get?
  intro e
  rw [htexts, SortedMap.get?_ofList (hn.sublist (Entries.sublist_keys_present _)),
    Entries.get?_present hn (List.mem_map.2 ⟨e, e.mem_all, rfl⟩)]
  rfl

instance : Readable CivicAddress where
  reads σ _ _ r := by
    obtain ⟨fields, hread, hgives⟩ := Fields.read_record (σ := σ) (by decide) r
    have htext : ∀ e ∈ CivicElement.all, (do
        let text : Option String ← fields.optional e.name
        return text.map (e, ·)) = (.ok ((r.get? e).map (e, ·)) : Decoded _) := by
      intro e he
      rw [(hgives _ (List.mem_map_of_mem he)).optional]
      rfl
    refine ⟨?_, rfl⟩
    show (Fields.read _ _ >>= _) = _
    rw [hread, Decoded.ok_bind, Decoded.mapM_eq_ok htext]
    show Except.ok (CivicAddress.mk (SortedMap.ofList _)) = _
    rw [CivicAddress.ofList_texts]

/-! ## 5. Subscriptions -/

instance : Readable MbsSessionEventMask where
  reads σ _ _ m := by
    refine ⟨?_, rfl⟩
    show ((decode (ofJson (encode m.events) : σ) : Decoded (List MbsSessionEvent)) >>= _) = _
    rw [(reads σ m.events).decode_encode]
    obtain ⟨_ | _, _ | _, _ | _⟩ := m <;> rfl

instance : Readable MbsSessionSubscription where
  reads σ _ _ r := by
    obtain ⟨fields, hread, hgives⟩ := Fields.read_record (σ := σ) (by decide) r
    simp only [Record.members, List.forall_mem_cons] at hgives
    obtain ⟨hsession, harea, hevents, huri, hcorrelation, hexpiry, hinstance, -⟩ := hgives
    exact ⟨by simp [decode, hread, hsession.optional, harea.optional, hevents.required,
      huri.optional, hcorrelation.optional, hexpiry.optional, hinstance.optional], rfl⟩

end MbsClient
