import MongoDam.Lib.Text
import MongoDam.Lib.Utf8
import MongoDam.Observer.Processor
import MongoDam.Outpost.Intake

/-!
# Principals and their identities

The observer writes the digest of a principal in lower-case digits. An operator may
write it in digits of either case, and Outpost compares the texts. An entry with an
upper-case digit is accepted and never looked up, and it is not recognised beside
another spelling of its digest.
-/

namespace MongoDam.Pipeline

open Lib Schema Observer Outpost

/-- The text of a principal with a digest, as the observer writes it. -/
def principalText (digest : Bytes) : String := "sha256:" ++ encodeHex digest

/-- The digest an entry denotes. -/
def digestOf (mapping : IdentityMappingEntry) : Option Bytes :=
  decodeHex (mapping.mongodbPrincipalHash.toList.drop 7)

/-! ### What a mapping document is for -/

/-- The events with the digest of an entry get the identity of the entry. -/
def TakesEffect (document : IdentityMappingDocument) (identities : Identities) : Prop :=
  ∀ mapping ∈ document.mappings, ∀ digest, digestOf mapping = some digest →
    ∀ (batch : DamBatch) (position : ℕ) (event : DamEvent),
      batch.events[position]? = some event →
      hashedPrincipal event.payload = some (principalText digest) →
      ∃ enriched, (enrichExternalIdentities batch identities).events[position]? = some enriched ∧
        enriched.identity = some mapping.identity

/-- Two entries denote one digest. -/
def SharesDigest (document : IdentityMappingDocument) : Prop :=
  ∃ (i j : ℕ) (first second : IdentityMappingEntry) (digest : Bytes), i < j ∧
    document.mappings[i]? = some first ∧ document.mappings[j]? = some second ∧
    digestOf first = some digest ∧ digestOf second = some digest

/-- An accepted document takes effect, and it is refused when two entries share a digest. -/
def MapsDigests (serde : Serde) (encoded : Bytes) (document : IdentityMappingDocument) : Prop :=
  (∀ identities, parseIdentityMappings serde encoded = .ok identities →
    TakesEffect document identities) ∧
  (document.WellFormed → SharesDigest document →
    parseIdentityMappings serde encoded = .error duplicateHash)

/-- No entry is written with an upper-case digit. -/
def InLowerCase (document : IdentityMappingDocument) : Prop :=
  ∀ mapping ∈ document.mappings, ∀ c ∈ mapping.mongodbPrincipalHash.toList, c.isUpper = false

/-! ### The digest of an entry -/

private theorem hexDigit?_isSome_ascii :
    ∀ n < 128, isHexDigit (Char.ofNat n) → (hexDigit? (Char.ofNat n)).isSome := by
  decide +kernel

private theorem isHexDigit_lt {c : Char} (h : isHexDigit c) : c.toNat < 128 := by
  have hle : ∀ d : Char, c ≤ d → c.toNat ≤ d.toNat := fun d hd => Char.le_def.mp hd
  rcases of_decide_eq_true h with hdigit | hlower | hupper
  · exact Nat.lt_of_le_of_lt (hle _ hdigit.2) (by decide)
  · exact Nat.lt_of_le_of_lt (hle _ hlower.2) (by decide)
  · exact Nat.lt_of_le_of_lt (hle _ hupper.2) (by decide)

theorem hexDigit?_isSome {c : Char} (h : isHexDigit c) : (hexDigit? c).isSome :=
  forall_ascii (P := fun c => isHexDigit c → (hexDigit? c).isSome) hexDigit?_isSome_ascii
    (isHexDigit_lt h) h

/-- The lead of a principal and its digits. -/
theorem toList_of_isPrincipalHash {text : String} (h : isPrincipalHash text = true) :
    text.toList = "sha256:".toList ++ text.toList.drop 7 ∧
      (∀ c ∈ text.toList.drop 7, isHexDigit c) ∧ (text.toList.drop 7).length = 64 := by
  obtain ⟨hstart, hbytes, hdigits⟩ := of_decide_eq_true h
  obtain ⟨rest, hrest⟩ := List.isPrefixOf_iff_prefix.mp hstart
  have hdrop : text.toList.drop 7 = rest := by
    rw [← hrest]
    rfl
  rw [List.all_eq_true] at hdigits
  refine ⟨by rw [hdrop, hrest], fun c hc => hdigits c hc, ?_⟩
  -- Every character is a single byte.
  have hsize : ∀ c ∈ rest, c.utf8Size = 1 := by
    intro c hc
    rw [← String.length_utf8EncodeChar,
      utf8EncodeChar_of_lt (isHexDigit_lt (hdigits c (hdrop ▸ hc))), List.length_singleton]
  have hsum : (rest.map Char.utf8Size).sum = rest.length := by
    rw [List.map_congr_left hsize]
    simp
  have hlead : ("sha256:".toList.map Char.utf8Size).sum = 7 := by decide
  rw [length_toUtf8, ← hrest, List.map_append, List.sum_append, hlead, hsum] at hbytes
  rw [hdrop]
  omega

/-- A valid entry denotes a digest. -/
theorem digestOf_isSome {mapping : IdentityMappingEntry}
    (h : validateIdentityMapping mapping = .ok ()) : ∃ digest, digestOf mapping = some digest := by
  obtain ⟨-, hdigits, hlength⟩ := toList_of_isPrincipalHash (isPrincipalHash_of_valid h)
  refine Option.isSome_iff_exists.mp (decodeHex_isSome (fun c hc => ?_) (by rw [hlength]))
  exact hexDigit?_isSome (hdigits c hc)

/-- A valid entry without upper-case digits is written as the observer writes its digest. -/
theorem eq_principalText {mapping : IdentityMappingEntry} {digest : Bytes}
    (h : validateIdentityMapping mapping = .ok ())
    (hlower : ∀ c ∈ mapping.mongodbPrincipalHash.toList, c.isUpper = false)
    (hdigest : digestOf mapping = some digest) :
    mapping.mongodbPrincipalHash = principalText digest := by
  obtain ⟨htext, -, -⟩ := toList_of_isPrincipalHash (isPrincipalHash_of_valid h)
  have hdigits := encodeHex_of_decodeHex hdigest fun c hc => hlower c (List.mem_of_mem_drop hc)
  rw [← String.toList_inj, htext, principalText, String.toList_append, hdigits]

private theorem hexDigit_isUpper : ∀ value < 16, (Lib.hexDigit value).isUpper = false := by
  decide

/-- The observer writes no upper-case digit. -/
theorem principalText_isUpper {digest : Bytes} {c : Char}
    (hc : c ∈ (principalText digest).toList) : c.isUpper = false := by
  rw [principalText, String.toList_append] at hc
  rcases List.mem_append.mp hc with hlead | hdigit
  · have hall : "sha256:".toList.all fun c => c.isUpper = false := by decide
    exact of_decide_eq_true (List.all_eq_true.mp hall c hlead)
  · rw [encodeHex, String.toList_ofList] at hdigit
    obtain ⟨b, -, hc⟩ := List.mem_flatMap.mp hdigit
    have hb := b.toNat_lt
    simp only [List.mem_cons, List.not_mem_nil, or_false] at hc
    rcases hc with rfl | rfl
    · exact hexDigit_isUpper _ (by omega)
    · exact hexDigit_isUpper _ (by omega)

/-- What the observer writes denotes the digest it was written for. -/
theorem digestOf_of_eq {mapping : IdentityMappingEntry} {digest : Bytes}
    (h : mapping.mongodbPrincipalHash = principalText digest) :
    digestOf mapping = some digest := by
  have hdrop : (principalText digest).toList.drop 7 = (encodeHex digest).toList := by
    rw [principalText, String.toList_append]
    rfl
  rw [digestOf, h, hdrop, decodeHex_encodeHex]

/-! ### Looking up a digest -/

/-- An event with the given principal, as an authentication reports it. -/
def authEvent (principal : String) : DamEvent where
  schemaVersion := EVENT_SCHEMA_VERSION
  eventId := "event"
  observedAt := 0
  monotonicTimestampNs := 0
  customerId := "customer"
  tenantId := "tenant"
  sourceId := "source"
  regionalCellId := "cell"
  capture := ⟨"sensor", "node", .openSslUprobe, .complete, false, false⟩
  kubernetes := none
  process := none
  identity := none
  payload := .mongodbAuth ⟨"SCRAM-SHA-256", some principal, true, none, "connection"⟩

/-- A batch of that event. -/
def authBatch (principal : String) : DamBatch where
  schemaVersion := BATCH_SCHEMA_VERSION
  batchId := "batch"
  customerId := "customer"
  tenantId := "tenant"
  sourceId := "source"
  regionalCellId := "cell"
  createdAt := 0
  events := [authEvent principal]

/-- An entry takes effect when its digest is looked up as the observer writes it. -/
theorem takesEffect_iff {document : IdentityMappingDocument} {identities : Identities} :
    TakesEffect document identities ↔ ∀ mapping ∈ document.mappings, ∀ digest,
      digestOf mapping = some digest →
      identities.get? (principalText digest) = some mapping.identity := by
  constructor
  · intro h mapping hmapping digest hdigest
    obtain ⟨enriched, henriched, hidentity⟩ := h mapping hmapping digest hdigest
      (authBatch (principalText digest)) 0 (authEvent (principalText digest)) rfl rfl
    cases henriched
    exact hidentity
  · intro h mapping hmapping digest hdigest batch position event hevent hprincipal
    refine ⟨enrichExternalIdentity identities event, ?_, ?_⟩
    · rw [enrichExternalIdentities, List.getElem?_map, hevent]
      rfl
    · rw [enrichExternalIdentity, hprincipal]
      exact h mapping hmapping digest hdigest

variable {serde : Serde} {encoded : Bytes} {document : IdentityMappingDocument}

/-- Entries without upper-case digits are looked up as the observer writes their digests. -/
theorem takesEffect_of_inLowerCase
    (hdecode : serde.decode IdentityMappingDocument.codec encoded = some document)
    {identities : Identities} (h : parseIdentityMappings serde encoded = .ok identities)
    (hlower : InLowerCase document) : TakesEffect document identities := by
  obtain ⟨hwell, -⟩ := wellFormed_of_parseIdentityMappings hdecode h
  obtain ⟨document', hdecode', -, -, hget⟩ := parseIdentityMappings_get? h
  cases hdecode.symm.trans hdecode'
  rw [takesEffect_iff]
  intro mapping hmapping digest hdigest
  rw [hget]
  exact ⟨mapping, hmapping,
    eq_principalText (hwell.entries mapping hmapping) (hlower mapping hmapping) hdigest, rfl⟩

/-- Without upper-case digits, entries that share a digest are written alike. -/
theorem not_nodup_of_sharesDigest (hwell : document.WellFormed) (hlower : InLowerCase document)
    (h : SharesDigest document) : ¬document.principalHashes.Nodup := by
  obtain ⟨i, j, first, second, digest, hij, hfirst, hsecond, hfirstDigest, hsecondDigest⟩ := h
  have htext : ∀ {position : ℕ} {mapping : IdentityMappingEntry},
      document.mappings[position]? = some mapping → digestOf mapping = some digest →
      document.principalHashes[position]? = some (principalText digest) := by
    intro position mapping hmapping hdigest
    have hmem := List.mem_of_getElem? hmapping
    rw [IdentityMappingDocument.principalHashes, List.getElem?_map, hmapping, Option.map_some,
      eq_principalText (hwell.entries mapping hmem) (hlower mapping hmem) hdigest]
  intro hnodup
  have hi := htext hfirst hfirstDigest
  have hj := htext hsecond hsecondDigest
  have heq := (List.getElem?_inj (List.getElem?_eq_some_iff.mp hi).1 hnodup).mp (hi.trans hj.symm)
  omega

/-- When every entry of a document takes effect, an entry is looked up by the text it is written
in, or it shares its digest with another entry. -/
theorem inLowerCase_of_takesEffect (hwell : document.WellFormed) {identities : Identities}
    (hget : ∀ principal identity, identities.get? principal = some identity ↔
      Mapped document.mappings principal identity)
    (heffect : TakesEffect document identities) (hshares : ¬SharesDigest document) :
    InLowerCase document := by
  intro mapping hmapping c hc
  obtain ⟨digest, hdigest⟩ := digestOf_isSome (hwell.entries mapping hmapping)
  obtain ⟨other, hother, htext, -⟩ :=
    (hget _ _).mp (takesEffect_iff.mp heffect mapping hmapping digest hdigest)
  have hotherDigest := digestOf_of_eq htext
  obtain ⟨i, hi⟩ := List.mem_iff_getElem?.mp hmapping
  obtain ⟨j, hj⟩ := List.mem_iff_getElem?.mp hother
  rcases Nat.lt_trichotomy i j with hlt | rfl | hlt
  · exact absurd ⟨i, j, mapping, other, digest, hlt, hi, hj, hdigest, hotherDigest⟩ hshares
  · cases hi.symm.trans hj
    rw [htext] at hc
    exact principalText_isUpper hc
  · exact absurd ⟨j, i, other, mapping, digest, hlt, hj, hi, hotherDigest, hdigest⟩ hshares

/-- A document maps digests exactly when no digit is in upper case, or two entries are written
alike and it is refused for them. -/
theorem mapsDigests_iff
    (hdecode : serde.decode IdentityMappingDocument.codec encoded = some document) :
    MapsDigests serde encoded document ↔
      (document.WellFormed → InLowerCase document ∨ ¬document.principalHashes.Nodup) := by
  constructor
  · rintro ⟨heffect, hrefused⟩ hwell
    by_cases hnodup : document.principalHashes.Nodup
    · obtain ⟨identities, hok⟩ := parseIdentityMappings_of_nodup hdecode hwell hnodup
      obtain ⟨document', hdecode', -, -, hget⟩ := parseIdentityMappings_get? hok
      cases hdecode.symm.trans hdecode'
      refine .inl (inLowerCase_of_takesEffect hwell hget (heffect identities hok) ?_)
      intro hshares
      cases hok.symm.trans (hrefused hwell hshares)
    · exact .inr hnodup
  · intro h
    refine ⟨?_, ?_⟩
    · intro identities hok
      obtain ⟨hwell, hnodup⟩ := wellFormed_of_parseIdentityMappings hdecode hok
      have hlower := (h hwell).resolve_right fun hdup => hdup hnodup
      exact takesEffect_of_inLowerCase hdecode hok hlower
    · intro hwell hshares
      have hdup : ¬document.principalHashes.Nodup := by
        rcases h hwell with hlower | hdup
        · exact not_nodup_of_sharesDigest hwell hlower hshares
        · exact hdup
      exact parseIdentityMappings_of_not_nodup hdecode hwell hdup

/-! ### Two spellings of a digest -/

/-- A document with one entry, for the given principal. -/
def oneMapping (principalHash : String) : IdentityMappingDocument where
  schemaVersion := 1
  mappings := [{
    mongodbPrincipalHash := principalHash
    provider := "aws"
    principalType := "iam_role"
    principalArn := "arn:aws:iam::123456789012:role/app"
    accountId := "123456789012"
    credentialSource := "aws_secrets_manager"
    credentialResource := "arn:aws:secretsmanager:eu-west-1:123456789012:secret:app" }]

def repeatedDigit (digit : Char) : String :=
  "sha256:" ++ String.ofList (List.replicate 64 digit)

/-- The text code for one mapping document. -/
def mappingSerde (document : IdentityMappingDocument) : Serde :=
  .ofDocument ((IdentityMappingDocument.codec.write document).getD .null) 127

def mappingText (document : IdentityMappingDocument) : Bytes :=
  toUtf8 (((IdentityMappingDocument.codec.write document).getD .null).render fun _ => "")

private theorem oneMapping_decode (digit : Char) :
    (mappingSerde (oneMapping (repeatedDigit digit))).decode IdentityMappingDocument.codec
        (mappingText (oneMapping (repeatedDigit digit))) =
      some (oneMapping (repeatedDigit digit)) := by
  have hencode : (mappingSerde (oneMapping (repeatedDigit digit))).encode
      IdentityMappingDocument.codec (oneMapping (repeatedDigit digit)) =
        some (mappingText (oneMapping (repeatedDigit digit))) := by
    have hwrite : IdentityMappingDocument.codec.write (oneMapping (repeatedDigit digit)) =
        some ((IdentityMappingDocument.codec.write (oneMapping (repeatedDigit digit))).getD
          .null) := rfl
    rw [Serde.encode, hwrite]
    simp [mappingSerde, mappingText, Serde.ofDocument]
  exact (Serde.decode_encode hencode).trans (if_pos (Nat.le_of_ble_eq_true rfl))

/-- A digest in lower-case digits is mapped. -/
theorem oneMapping_lower_maps :
    MapsDigests (mappingSerde (oneMapping (repeatedDigit 'a')))
      (mappingText (oneMapping (repeatedDigit 'a'))) (oneMapping (repeatedDigit 'a')) :=
  (mapsDigests_iff (oneMapping_decode 'a')).mpr fun _ => .inl (by
    intro mapping hmapping c hc
    have hall : (oneMapping (repeatedDigit 'a')).mappings.all fun mapping =>
        mapping.mongodbPrincipalHash.toList.all fun c => c.isUpper = false := by decide +kernel
    exact of_decide_eq_true (List.all_eq_true.mp (List.all_eq_true.mp hall mapping hmapping) c hc))

/-- The same digest in upper-case digits is accepted and has no effect. -/
theorem oneMapping_upper_has_no_effect :
    (mappingSerde (oneMapping (repeatedDigit 'A'))).decode IdentityMappingDocument.codec
        (mappingText (oneMapping (repeatedDigit 'A'))) =
      some (oneMapping (repeatedDigit 'A')) ∧
    ¬MapsDigests (mappingSerde (oneMapping (repeatedDigit 'A')))
      (mappingText (oneMapping (repeatedDigit 'A'))) (oneMapping (repeatedDigit 'A')) := by
  have hdecode := oneMapping_decode 'A'
  have hwell : (oneMapping (repeatedDigit 'A')).WellFormed := by
    refine ⟨rfl, by decide, fun mapping hmapping => ?_⟩
    rw [List.mem_singleton.mp hmapping]
    decide +kernel
  refine ⟨hdecode, fun h => ?_⟩
  obtain ⟨identities, hok⟩ := parseIdentityMappings_of_nodup hdecode hwell (by
    rw [IdentityMappingDocument.principalHashes, oneMapping]
    exact List.nodup_singleton _)
  obtain ⟨document, hdocument, -, -, hget⟩ := parseIdentityMappings_get? hok
  cases hdecode.symm.trans hdocument
  have hshares : ¬SharesDigest (oneMapping (repeatedDigit 'A')) := by
    rintro ⟨i, j, first, second, digest, hij, hi, hj, hdigests⟩
    have hlt := (List.getElem?_eq_some_iff.mp hj).1
    change j < 1 at hlt
    omega
  have hlower := inLowerCase_of_takesEffect hwell hget (h.1 identities hok) hshares
  have hupper := hlower _ (List.mem_singleton_self _) 'A' (by decide +kernel)
  exact absurd hupper (by decide)

end MongoDam.Pipeline
