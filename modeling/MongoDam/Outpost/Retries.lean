import MongoDam.Outpost.Acceptance
import MongoDam.Spool.Calls

/-!
# Submitting a batch again

Observer sends a batch again when the answer was lost. Outpost recognises it by the
hash of the enriched text, not by its `batch_id`. As long as the identities and the
pods of the batch stay the same, there is one item for it, pending or in quarantine.
When they change between two attempts, the second attempt makes a second item.
-/

namespace MongoDam.Outpost

open Lib Schema Spool FileSystem Program

/-- An item that is the text of a batch with the id. -/
def Carries (deps : Dependencies) (batchId : String) (held : Holdings) (place : Place)
    (id : String) : Prop :=
  ∃ item stored, held place id = some item ∧
    deps.serde.encode (DamBatch.codec deps.serde) stored = some item ∧ stored.batchId = batchId

/-- Pending and quarantined items taken together, at most one carries the batch id. -/
def AtMostOne (deps : Dependencies) (batchId : String) (held : Holdings) : Prop :=
  ∀ place id place' id', Carries deps batchId held place id →
    Carries deps batchId held place' id' → place = place' ∧ id = id'

section Runs

variable (deps : Dependencies) (config : OutpostConfig) (body : Bytes)
  (found : Surroundings → Prop)

/-- A spool while one body is submitted again and again, each time in some of the surroundings
that are `found`, and items are acknowledged and moved to the quarantine in between. -/
inductive Retries (start : Disk) : Disk → Prop
  | start : Retries start start
  | accept {fs fs' : Disk} {surroundings : Surroundings} {headers : HeaderMap}
      {result : Except SpoolError Response} (hretries : Retries start fs)
      (hfound : found surroundings)
      (hends : Ends Exec (acceptBatch deps config surroundings headers body) fs result fs') :
      Retries start fs'
  | acknowledge {fs fs' : Disk} {item : PendingItem} {result : Except SpoolError Unit}
      (hretries : Retries start fs) (hends : Ends Exec (acknowledge item) fs result fs') :
      Retries start fs'
  | quarantine {fs fs' : Disk} {item : PendingItem} {result : Except SpoolError Unit}
      (hretries : Retries start fs) (hends : Ends Exec (quarantine item) fs result fs') :
      Retries start fs'

/-- Both surroundings have the same to say about the principals and the pods of a batch. -/
structure AgreeOn (batch : DamBatch) (one other : Surroundings) : Prop where
  identities : ∀ event ∈ batch.events, ∀ principal, NamesPrincipal event.payload principal →
    ∀ identity, MapsTo deps config one principal identity ↔
      MapsTo deps config other principal identity
  pods : ∀ event ∈ batch.events, ∀ uid, event.kubernetes.bind (·.podUid) = some uid →
    one.kubernetes.get? uid = other.kubernetes.get? uid

end Runs

variable {deps : Dependencies} {config : OutpostConfig} {body : Bytes}
  {found : Surroundings → Prop} {start fs fs' : Disk} {batch : DamBatch}

/-! ### Enrichment in the same surroundings -/

private theorem enrichMetadata_congr (clusterName : String)
    {cache cache' : Table String KubernetesMetadata} {existing : Option KubernetesMetadata}
    (h : ∀ uid, existing.bind (·.podUid) = some uid → cache.get? uid = cache'.get? uid) :
    enrichMetadata clusterName cache existing = enrichMetadata clusterName cache' existing := by
  have hpod : (existing.getD {}).podUid.bind cache.get? =
      (existing.getD {}).podUid.bind cache'.get? := by
    cases existing with
    | none => rfl
    | some metadata =>
      cases huid : metadata.podUid with
      | none => simp [huid]
      | some uid => simpa [huid] using h uid huid
  simp [enrichMetadata, hpod]

/-- A batch is enriched in the same way in surroundings that agree on it. -/
theorem AgreeOn.enrichBatch_eq {one other : Surroundings}
    (h : AgreeOn deps config batch one other) :
    enrichBatch deps config one batch = enrichBatch deps config other batch := by
  rw [Outpost.enrichBatch_eq, Outpost.enrichBatch_eq]
  congr 1
  refine List.map_congr_left fun event hevent => ?_
  have hidentity : (hashedPrincipal event.payload).bind (currentIdentities deps config one).get? =
      (hashedPrincipal event.payload).bind (currentIdentities deps config other).get? := by
    cases hprincipal : hashedPrincipal event.payload with
    | none => rfl
    | some principal =>
      refine Option.ext fun identity => ?_
      change (currentIdentities deps config one).get? principal = some identity ↔
        (currentIdentities deps config other).get? principal = some identity
      rw [currentIdentities_get?, currentIdentities_get?]
      exact h.identities event hevent principal (hashedPrincipal_eq_some.mp hprincipal) identity
  have hmetadata := enrichMetadata_congr config.clusterName (h.pods event hevent)
  unfold enrichEvent enrichKubernetes enrichExternalIdentity
  simp only [hidentity, hmetadata]

/-! ### Items of one batch -/

/-- Only one id carries the batch id, and only in one directory. -/
structure Single (deps : Dependencies) (batchId : String) (ids : String → Prop)
    (held : Holdings) : Prop where
  carried : ∀ place id, Carries deps batchId held place id → ids id
  apart : ∀ id, ¬(Carries deps batchId held .root id ∧ Carries deps batchId held .quarantine id)

section Items

variable {batchId : String} {ids : String → Prop} {held : Holdings}

theorem Single.atMostOne (h : Single deps batchId ids held)
    (hids : ∀ id id', ids id → ids id' → id = id') : AtMostOne deps batchId held := by
  intro place id place' id' hcarries hcarries'
  have hid : id = id' := hids id id' (h.carried _ _ hcarries) (h.carried _ _ hcarries')
  subst hid
  have hapart := h.apart id
  cases place with
  | root =>
    cases place' with
    | root => exact ⟨rfl, rfl⟩
    | quarantine => exact absurd ⟨hcarries, hcarries'⟩ hapart
  | quarantine =>
    cases place' with
    | root => exact absurd ⟨hcarries', hcarries⟩ hapart
    | quarantine => exact ⟨rfl, rfl⟩

/-- An item that was not set carried the batch id before. -/
private theorem Carries.of_set {place p : Place} {id i : String} {item : Option Bytes}
    (h : Carries deps batchId (held.set place id item) p i) (hne : ¬(p = place ∧ i = id)) :
    Carries deps batchId held p i := by
  obtain ⟨found, stored, hheld, hencode, hid⟩ := h
  rw [Holdings.set, if_neg hne] at hheld
  exact ⟨found, stored, hheld, hencode, hid⟩

private theorem not_carries_of_none {place : Place} {id : String} (h : held place id = none) :
    ¬Carries deps batchId held place id := by
  rintro ⟨item, stored, hheld, -⟩
  rw [h] at hheld
  cases hheld

theorem Single.acknowledge (h : Single deps batchId ids held) (id : String) :
    Single deps batchId ids (held.acknowledge id) := by
  have hback : ∀ p i, Carries deps batchId (held.acknowledge id) p i →
      Carries deps batchId held p i := by
    intro p i hcarries
    by_cases heq : p = .root ∧ i = id
    · obtain ⟨rfl, rfl⟩ := heq
      exact absurd hcarries (not_carries_of_none (Holdings.set_self ..))
    · exact hcarries.of_set heq
  exact ⟨fun p i hcarries => h.carried p i (hback p i hcarries),
    fun i hboth => h.apart i ⟨hback _ _ hboth.1, hback _ _ hboth.2⟩⟩

theorem Single.quarantine (h : Single deps batchId ids held) (id : String) :
    Single deps batchId ids (held.quarantine id) := by
  unfold Holdings.quarantine
  split
  · exact h.acknowledge id
  · rename_i hfree
    split
    · exact h
    · rename_i item hroot
      have hmoved : ∀ p i, Carries deps batchId
          ((held.set .root id none).set .quarantine id (some item)) p i →
          (p = .quarantine ∧ i = id ∧ Carries deps batchId held .root id) ∨
            ((p, i) ≠ (.root, id) ∧ Carries deps batchId held p i) := by
        intro p i hcarries
        by_cases hquarantine : p = .quarantine ∧ i = id
        · obtain ⟨rfl, rfl⟩ := hquarantine
          obtain ⟨found, stored, hheld, hencode, hid⟩ := hcarries
          rw [Holdings.set_self, ← hroot] at hheld
          exact Or.inl ⟨rfl, rfl, found, stored, hheld, hencode, hid⟩
        · have hcarries := hcarries.of_set hquarantine
          by_cases hsource : p = .root ∧ i = id
          · obtain ⟨rfl, rfl⟩ := hsource
            exact absurd hcarries (not_carries_of_none (Holdings.set_self ..))
          · exact Or.inr ⟨fun heq => hsource (Prod.mk.inj heq), hcarries.of_set hsource⟩
      refine ⟨fun p i hcarries => ?_, fun i hboth => ?_⟩
      · rcases hmoved p i hcarries with ⟨-, rfl, hbefore⟩ | ⟨-, hbefore⟩
        · exact h.carried _ _ hbefore
        · exact h.carried _ _ hbefore
      · rcases hmoved _ _ hboth.1 with ⟨hplace, -⟩ | ⟨hne, hroot'⟩
        · cases hplace
        · rcases hmoved _ _ hboth.2 with ⟨-, rfl, -⟩ | ⟨-, hquarantine⟩
          · exact hne rfl
          · exact h.apart i ⟨hroot', hquarantine⟩

theorem Single.enqueue {encoded : Bytes} (h : Single deps batchId ids held)
    (hid : ids (bodyId deps.sha256 encoded)) :
    Single deps batchId ids (held.enqueue deps.sha256 encoded) := by
  unfold Holdings.enqueue
  split
  · exact h
  · rename_i habsent
    have hquarantine : held .quarantine (bodyId deps.sha256 encoded) = none := by
      rw [← Option.not_isSome_iff_eq_none]
      exact fun hsome => habsent (Or.inr hsome)
    refine ⟨fun p i hcarries => ?_, fun i hboth => ?_⟩
    · by_cases heq : p = .root ∧ i = bodyId deps.sha256 encoded
      · exact heq.2 ▸ hid
      · exact h.carried p i (hcarries.of_set heq)
    · have hsecond := hboth.2.of_set (by simp)
      by_cases heq : i = bodyId deps.sha256 encoded
      · subst heq
        exact not_carries_of_none hquarantine hsecond
      · exact h.apart i ⟨hboth.1.of_set fun hpair => heq hpair.2, hsecond⟩

end Items

/-! ### Runs -/

/-- The ids under which the batch can be stored. -/
private def StoredAs (deps : Dependencies) (config : OutpostConfig) (found : Surroundings → Prop)
    (batch : DamBatch) (id : String) : Prop :=
  ∃ surroundings encoded, found surroundings ∧
    deps.serde.encode (DamBatch.codec deps.serde) (enrichBatch deps config surroundings batch) =
      some encoded ∧ id = bodyId deps.sha256 encoded

private theorem storedAs_unique
    (hagree : ∀ one other, found one → found other → AgreeOn deps config batch one other)
    {id id' : String} (h : StoredAs deps config found batch id)
    (h' : StoredAs deps config found batch id') : id = id' := by
  obtain ⟨one, encoded, hone, hencoded, rfl⟩ := h
  obtain ⟨other, encoded', hother, hencoded', rfl⟩ := h'
  rw [(hagree one other hone hother).enrichBatch_eq, hencoded'] at hencoded
  rw [Option.some.inj hencoded]

/-- What holds of the spool between the steps. -/
private def Steady (deps : Dependencies) (config : OutpostConfig) (found : Surroundings → Prop)
    (batch : DamBatch) (fs : Disk) : Prop :=
  Settled (fun _ => True) fs ∧
    Single deps batch.batchId (StoredAs deps config found batch) (held fs)

private theorem accept_steady {surroundings : Surroundings} {headers : HeaderMap}
    {result : Except SpoolError Response}
    (hbatch : deps.serde.decode (DamBatch.codec deps.serde) body = some batch)
    (hfound : found surroundings) (h : Steady deps config found batch fs)
    (hends : Ends Exec (acceptBatch deps config surroundings headers body) fs result fs') :
    Steady deps config found batch fs' := by
  obtain ⟨hsettled, hsingle⟩ := h
  have hread : ∀ place s result s',
      Exec (.readDir place : FileOp Place Name) s result s' → s' = s := by
    rintro place s result s' hexec
    exact hexec.1
  have hsteady : (acceptBatch deps config surroundings headers body).Ensures Exec
      (fun _ => True) (fun _ s => Steady deps config found batch s) fs := by
    apply acceptBatch_ensures hread
    · exact fun _ _ => ⟨hsettled, hsingle⟩
    · exact fun _ _ => ⟨hsettled, hsingle⟩
    · intro submitted encoded hcheck hencoded
      have hsame : submitted = batch :=
        Option.some.inj ((checkBatch_ok.mp hcheck).submitted.symm.trans hbatch)
      subst hsame
      refine (enqueue_ensures deps.sha256 config.spoolMaxBytes trivial hsettled).mono
        (fun _ _ => trivial) ?_
      rintro (error | id) s ⟨hsettled', hresult⟩
      · exact ⟨trivial, hsettled', hresult ▸ hsingle⟩
      · exact ⟨trivial, hsettled',
          hresult.2 ▸ hsingle.enqueue ⟨surroundings, encoded, hfound, hencoded, rfl⟩⟩
  exact hsteady.ends hends

/-- While the surroundings agree on a batch, at most one item of the spool carries its id,
however often the batch is submitted and whatever becomes of its item. -/
theorem retries_atMostOne (hsettled : Settled (fun _ => True) start)
    (hbatch : deps.serde.decode (DamBatch.codec deps.serde) body = some batch)
    (hnew : ∀ place id, ¬Carries deps batch.batchId (held start) place id)
    (hagree : ∀ one other, found one → found other → AgreeOn deps config batch one other)
    (h : Retries deps config body found start fs) :
    AtMostOne deps batch.batchId (held fs) := by
  have hsteady : Steady deps config found batch fs := by
    induction h with
    | start =>
      exact ⟨hsettled, fun place id hcarries => absurd hcarries (hnew place id),
        fun id hboth => hnew _ _ hboth.1⟩
    | accept _ hfound hends ih => exact accept_steady hbatch hfound ih hends
    | @acknowledge _ _ item _ _ hends ih =>
      obtain ⟨-, hsettled', hheld⟩ := Always.ends (acknowledge_ensures item ih.1) hends
      exact ⟨hsettled', hheld ▸ ih.2.acknowledge item.id⟩
    | @quarantine _ _ item _ _ hends ih =>
      obtain ⟨hsettled', hheld, -⟩ := Always.ends (quarantine_ensures item ih.1) hends
      exact ⟨hsettled', hheld ▸ ih.2.quarantine item.id⟩
  exact hsteady.2.atMostOne fun _ _ hid hid' => storedAs_unique hagree hid hid'

/-! ### Concrete submissions -/

/-- The surroundings after the pods were read. -/
def Surroundings.refreshed : Surroundings where
  kubernetes := Table.empty.insert "p"
    { clusterName := some "k", nameSpace := some "db", podName := some "mongo-0" }
  readFile _ := .error .notFound

/-- The sample batch with the metadata of its pod. -/
def namedBatch : DamBatch where
  schemaVersion := BATCH_SCHEMA_VERSION
  batchId := "batch-0"
  customerId := "c"
  tenantId := "t"
  sourceId := "s"
  regionalCellId := "r"
  createdAt := 0
  events :=
    [{ podEvent with
      kubernetes := some
        { clusterName := some "k"
          nameSpace := some "db"
          podName := some "mongo-0"
          podUid := some "p" } }]

/-- The digest of that batch. -/
def namedDigest : Bytes × Bytes :=
  (epochText namedBatch,
    [204, 240, 209, 80, 145, 167, 208, 93, 238, 53, 234, 214, 234, 157, 177, 4, 59, 30, 163, 138,
      227, 88, 129, 139, 28, 97, 202, 42, 142, 3, 35, 113])

private theorem texts_distinct : (([podBatch, namedBatch].map epochDocument).map fun document =>
    toUtf8 (document.render fun _ => "")).Nodup := by
  decide +kernel

/-- The text code and the digests of both batches. -/
def Dependencies.sample : Dependencies :=
  .ofBatches [podDigest, namedDigest] [podBatch, namedBatch] texts_distinct

/-- A spool after one submission in each of two surroundings. -/
def submittedTwice (one other : Surroundings) : Disk :=
  let first := Program.run perform (acceptBatch .sample .sample one bearerHeaders
    (epochText podBatch)) (.empty : Disk)
  (Program.run perform (acceptBatch .sample .sample other bearerHeaders (epochText podBatch))
    first.2).2

private theorem retries_submittedTwice (found : Surroundings → Prop) {one other : Surroundings}
    (hone : found one) (hother : found other) :
    Retries .sample .sample (epochText podBatch) found (.empty : Disk)
      (submittedTwice one other) :=
  .accept (.accept .start hone (ends_run exec_perform _ _)) hother (ends_run exec_perform _ _)

private theorem settled_empty : Settled (fun _ => True) (.empty : Disk) := by
  refine ⟨rfl, rfl, ?_, fun _ _ => trivial⟩
  intro path file hget
  cases hget

/-- Both batches are written as their texts. -/
private theorem encode_epochText {batch : DamBatch} (hbatch : batch ∈ [podBatch, namedBatch]) :
    Dependencies.sample.serde.encode (DamBatch.codec Dependencies.sample.serde) batch =
      some (epochText batch) := by
  have hwritten : ∀ batch ∈ [podBatch, namedBatch],
      ((DamBatch.codec (.ofDocument .null 0)).write batch).isSome := by
    decide +kernel
  obtain ⟨document, hdocument⟩ := Option.isSome_iff_exists.mp (hwritten batch hbatch)
  have hepoch : epochDocument batch = document := by
    rw [epochDocument, hdocument, Option.getD_some]
  have hwrite : (DamBatch.codec Dependencies.sample.serde).write batch = some document :=
    hdocument
  rw [Serde.encode, hwrite, epochText, hepoch]
  exact if_pos (hepoch ▸ List.mem_map_of_mem hbatch)

private theorem decode_epochText :
    Dependencies.sample.serde.decode (DamBatch.codec Dependencies.sample.serde)
      (epochText podBatch) = some podBatch := by
  have hdepth : (DamBatch.codec Dependencies.sample.serde).depth podBatch ≤
      Dependencies.sample.serde.limit := by
    decide +kernel
  rw [Serde.decode_encode (encode_epochText (List.mem_cons_self ..)), if_pos hdepth]
  decide +kernel

/-- Two submissions before the pods are read make one item. -/
theorem submittedTwice_atMostOne :
    AtMostOne .sample podBatch.batchId (held (submittedTwice .bare .bare)) := by
  have hretries : Retries .sample .sample (epochText podBatch) (· = .bare) (.empty : Disk)
      (submittedTwice .bare .bare) := retries_submittedTwice _ rfl rfl
  refine retries_atMostOne settled_empty decode_epochText ?_ ?_ hretries
  · rintro place id ⟨item, stored, hheld, -⟩
    cases hheld
  · rintro one other rfl rfl
    exact ⟨fun _ _ _ _ _ => Iff.rfl, fun _ _ _ _ => rfl⟩

/-- A submission before the pods are read and one after make two items with the same batch
id. -/
theorem submittedTwice_not_atMostOne :
    Retries .sample .sample (epochText podBatch) (fun _ => True) (.empty : Disk)
        (submittedTwice .bare .refreshed) ∧
      Dependencies.sample.serde.decode (DamBatch.codec Dependencies.sample.serde)
        (epochText podBatch) = some podBatch ∧
      podBatch.validate = .ok () ∧
      ¬AtMostOne .sample podBatch.batchId (held (submittedTwice .bare .refreshed)) := by
  refine ⟨retries_submittedTwice _ trivial trivial, decode_epochText, by decide +kernel, ?_⟩
  intro hone
  have hheld :
      held (submittedTwice .bare .refreshed) .root (encodeHex podDigest.2) =
          some (epochText podBatch) ∧
        held (submittedTwice .bare .refreshed) .root (encodeHex namedDigest.2) =
          some (epochText namedBatch) := by
    decide +kernel
  have hfirst : Carries .sample podBatch.batchId (held (submittedTwice .bare .refreshed)) .root
      (encodeHex podDigest.2) :=
    ⟨epochText podBatch, podBatch, hheld.1, encode_epochText (List.mem_cons_self ..), rfl⟩
  have hsecond : Carries .sample podBatch.batchId (held (submittedTwice .bare .refreshed)) .root
      (encodeHex namedDigest.2) :=
    ⟨epochText namedBatch, namedBatch, hheld.2, encode_epochText (by simp), rfl⟩
  have hsame := (hone _ _ _ _ hfirst hsecond).2
  revert hsame
  decide +kernel

end MongoDam.Outpost
