import MongoDam.Lib.FileSystem
import MongoDam.Schema.Json

/-!
# The identity mapping

An operator may map hashed principals to external identities in a file. The file is
read at every request. It is used as a whole or not at all: a mapping that is not
well formed, or that names a principal twice, gives no identities.
-/

namespace MongoDam.Outpost

open Lib Codec Schema

/-! ### The document -/

structure IdentityMappingEntry where
  mongodbPrincipalHash : String
  provider : String
  principalType : String
  principalArn : String
  accountId : String
  credentialSource : String
  credentialResource : String
  deriving DecidableEq, Repr

structure IdentityMappingDocument where
  schemaVersion : ℕ
  mappings : List IdentityMappingEntry
  deriving DecidableEq, Repr

def IdentityMappingEntry.codec : Codec IdentityMappingEntry :=
  Fields.record
    (Fields.start IdentityMappingEntry.mk
      |>.field "mongodb_principal_hash" string.required (·.mongodbPrincipalHash)
      |>.field "provider" string.required (·.provider)
      |>.field "principal_type" string.required (·.principalType)
      |>.field "principal_arn" string.required (·.principalArn)
      |>.field "account_id" string.required (·.accountId)
      |>.field "credential_source" string.required (·.credentialSource)
      |>.field "credential_resource" string.required (·.credentialResource))
    (by decide)

def IdentityMappingDocument.codec : Codec IdentityMappingDocument :=
  Fields.record
    (Fields.start IdentityMappingDocument.mk
      |>.field "schema_version" (unsigned 16).required (·.schemaVersion)
      |>.field "mappings" IdentityMappingEntry.codec.list.required (·.mappings))
    (by decide)

/-! ### Checks -/

/-- `str::starts_with`. -/
def startsWith (text lead : String) : Bool := lead.toList.isPrefixOf text.toList

/-- `str::splitn`: the last of the pieces is the rest of the text. -/
def splitN (separator : Char) : ℕ → List Char → List (List Char)
  | 0, _ => []
  | 1, text => [text]
  | count + 2, text =>
    match text.span (· ≠ separator) with
    | (piece, []) => [piece]
    | (piece, _ :: rest) => piece :: splitN separator (count + 1) rest

/-- `value.splitn(6, ':')` with six pieces. -/
def arnParts (value : String) : Option (String × String × String × String × String × String) :=
  match (splitN ':' 6 value.toList).map String.ofList with
  | [arn, partition, service, region, account, resource] =>
    some (arn, partition, service, region, account, resource)
  | _ => none

/-- The text starts with `lead` and goes on after it. -/
def startsPast (text lead : String) : Bool :=
  startsWith text lead ∧ (toUtf8 lead).length < (toUtf8 text).length

def validIamPrincipalArn (value accountId principalType : String) : Bool :=
  let expectedResource := if principalType = "iam_user" then "user/" else "role/"
  match arnParts value with
  | some (arn, partition, service, region, account, resource) =>
    arn = "arn" ∧ partition ≠ "" ∧ service = "iam" ∧ region = "" ∧ account = accountId ∧
      startsPast resource expectedResource
  | none => false

def validSecretsManagerArn (value accountId : String) : Bool :=
  match arnParts value with
  | some (arn, partition, service, region, account, resource) =>
    arn = "arn" ∧ partition ≠ "" ∧ service = "secretsmanager" ∧ region ≠ "" ∧
      account = accountId ∧ startsPast resource "secret:"
  | none => false

def isHexDigit (c : Char) : Bool :=
  ('0' ≤ c ∧ c ≤ '9') ∨ ('a' ≤ c ∧ c ≤ 'f') ∨ ('A' ≤ c ∧ c ≤ 'F')

/-- `sha256:` and 64 hexadecimal digits. -/
def isPrincipalHash (text : String) : Bool :=
  startsWith text "sha256:" ∧ (toUtf8 text).length = 71 ∧ (text.toList.drop 7).all isHexDigit

/-- Why a mapping gives no identities. -/
inductive MappingError where
  | io (error : IoError)
  | unreadable
  | refused (reason : String)
  deriving DecidableEq, Repr

/-- `anyhow::ensure!`. -/
def ensure (condition : Bool) (reason : String) : Except MappingError Unit :=
  if condition then .ok () else .error (.refused reason)

def validateIdentityMapping (mapping : IdentityMappingEntry) : Except MappingError Unit := do
  ensure (isPrincipalHash mapping.mongodbPrincipalHash)
    "MongoDB principal hash must be sha256 followed by 64 hexadecimal characters"
  ensure (mapping.provider = "aws") "identity provider must be aws"
  ensure (mapping.principalType = "iam_user" ∨ mapping.principalType = "iam_role")
    "principal_type must be iam_user or iam_role"
  ensure ((toUtf8 mapping.accountId).length = 12 ∧ mapping.accountId.toList.all Char.isDigit)
    "AWS account_id must contain 12 digits"
  ensure (validIamPrincipalArn mapping.principalArn mapping.accountId mapping.principalType)
    "principal_arn does not match account_id and principal_type"
  ensure (mapping.credentialSource = "aws_secrets_manager")
    "credential_source must be aws_secrets_manager"
  ensure (validSecretsManagerArn mapping.credentialResource mapping.accountId)
    "credential_resource must be a Secrets Manager ARN in account_id"

/-- The identity an entry gives. -/
def IdentityMappingEntry.identity (mapping : IdentityMappingEntry) : ExternalIdentity where
  provider := mapping.provider
  principalType := mapping.principalType
  principalArn := mapping.principalArn
  accountId := mapping.accountId
  credentialSource := mapping.credentialSource
  credentialResource := mapping.credentialResource

/-- External identities by hashed principal. -/
abbrev Identities := Table String ExternalIdentity

/-- Add the entries one after the other. -/
def insertMappings (identities : Identities) :
    List IdentityMappingEntry → Except MappingError Identities
  | [] => .ok identities
  | mapping :: rest => do
    validateIdentityMapping mapping
    ensure (identities.get? mapping.mongodbPrincipalHash).isNone
      "identity mapping contains a duplicate MongoDB principal hash"
    insertMappings (identities.insert mapping.mongodbPrincipalHash mapping.identity) rest

def parseIdentityMappings (serde : Serde) (encoded : Bytes) : Except MappingError Identities :=
  match serde.decode IdentityMappingDocument.codec encoded with
  | none => .error .unreadable
  | some document => do
    ensure (document.schemaVersion = 1) "unsupported identity mapping schema_version"
    ensure (document.mappings.length ≤ 1000) "identity mapping exceeds 1000 entries"
    insertMappings .empty document.mappings

/-- A mapping file that is not there is empty. -/
def loadIdentityMappings (serde : Serde) (readFile : String → Except IoError Bytes)
    (path : String) : Except MappingError Identities :=
  match readFile path with
  | .ok encoded => parseIdentityMappings serde encoded
  | .error .notFound => .ok .empty
  | .error error => .error (.io error)

/-! ### What a mapping maps -/

/-- Some entry maps the principal to the identity. -/
def Mapped (mappings : List IdentityMappingEntry) (principal : String)
    (identity : ExternalIdentity) : Prop :=
  ∃ mapping ∈ mappings, mapping.mongodbPrincipalHash = principal ∧ mapping.identity = identity

private theorem ensure_bind_ok {condition : Bool} {reason : String}
    {next : Except MappingError α} {result : α}
    (h : (do ensure condition reason; next) = .ok result) :
    condition = true ∧ next = .ok result := by
  cases condition with
  | true => exact ⟨rfl, h⟩
  | false => cases h

/-- One entry was added under a new principal. -/
private theorem insertMappings_cons {identities result : Identities}
    {mapping : IdentityMappingEntry} {rest : List IdentityMappingEntry}
    (h : insertMappings identities (mapping :: rest) = .ok result) :
    validateIdentityMapping mapping = .ok () ∧
      identities.get? mapping.mongodbPrincipalHash = none ∧
      insertMappings (identities.insert mapping.mongodbPrincipalHash mapping.identity) rest =
        .ok result := by
  rw [insertMappings] at h
  cases hvalid : validateIdentityMapping mapping with
  | error error =>
    rw [hvalid] at h
    cases h
  | ok value =>
    rw [hvalid] at h
    obtain ⟨hnew, hrest⟩ := ensure_bind_ok h
    exact ⟨rfl, by simpa using hnew, hrest⟩

/-- The entries are mapped beside what was there before. -/
theorem insertMappings_get? {identities result : Identities}
    {mappings : List IdentityMappingEntry} (h : insertMappings identities mappings = .ok result)
    (principal : String) (identity : ExternalIdentity) :
    result.get? principal = some identity ↔
      identities.get? principal = some identity ∨ Mapped mappings principal identity := by
  induction mappings generalizing identities with
  | nil =>
    cases h
    simp [Mapped]
  | cons mapping rest ih =>
    obtain ⟨-, hnew, hrest⟩ := insertMappings_cons h
    rw [ih hrest, Table.get?_insert]
    by_cases hprincipal : principal = mapping.mongodbPrincipalHash
    · subst hprincipal
      simp [Mapped, hnew]
    · have hother : ¬mapping.mongodbPrincipalHash = principal := fun heq => hprincipal heq.symm
      simp [Mapped, hprincipal, hother]

/-- A mapping that is used holds exactly the identities of its entries. -/
theorem parseIdentityMappings_get? {serde : Serde} {encoded : Bytes} {identities : Identities}
    (h : parseIdentityMappings serde encoded = .ok identities) :
    ∃ document, serde.decode IdentityMappingDocument.codec encoded = some document ∧
      document.schemaVersion = 1 ∧ document.mappings.length ≤ 1000 ∧
      ∀ principal identity, identities.get? principal = some identity ↔
        Mapped document.mappings principal identity := by
  unfold parseIdentityMappings at h
  split at h
  · cases h
  · rename_i document hdocument
    obtain ⟨hversion, h⟩ := ensure_bind_ok h
    obtain ⟨hlength, h⟩ := ensure_bind_ok h
    refine ⟨document, hdocument, by simpa using hversion, by simpa using hlength, ?_⟩
    intro principal identity
    rw [insertMappings_get? h]
    simp

/-! ### What is accepted -/

/-- The version, the length and every entry of a document are as they have to be. -/
structure IdentityMappingDocument.WellFormed (document : IdentityMappingDocument) : Prop where
  version : document.schemaVersion = 1
  length : document.mappings.length ≤ 1000
  entries : ∀ mapping ∈ document.mappings, validateIdentityMapping mapping = .ok ()

/-- The principals the entries are for, as they are written. -/
def IdentityMappingDocument.principalHashes (document : IdentityMappingDocument) : List String :=
  document.mappings.map (·.mongodbPrincipalHash)

/-- The refusal of a second entry for a principal. -/
def duplicateHash : MappingError :=
  .refused "identity mapping contains a duplicate MongoDB principal hash"

/-- The hash of a valid entry has the form of one. -/
theorem isPrincipalHash_of_valid {mapping : IdentityMappingEntry}
    (h : validateIdentityMapping mapping = .ok ()) :
    isPrincipalHash mapping.mongodbPrincipalHash = true :=
  (ensure_bind_ok h).1

/-- A valid entry is added unless its principal is there already. -/
private theorem insertMappings_cons_of_valid {mapping : IdentityMappingEntry}
    (h : validateIdentityMapping mapping = .ok ()) (identities : Identities)
    (rest : List IdentityMappingEntry) :
    insertMappings identities (mapping :: rest) =
      if (identities.get? mapping.mongodbPrincipalHash).isNone then
        insertMappings (identities.insert mapping.mongodbPrincipalHash mapping.identity) rest
      else .error duplicateHash := by
  rw [insertMappings, h]
  change (do ensure _ _; _) = _
  unfold ensure
  split <;> rfl

/-- Entries that were added were valid and for principals that were new. -/
theorem insertMappings_ok {identities result : Identities}
    {mappings : List IdentityMappingEntry} (h : insertMappings identities mappings = .ok result) :
    (∀ mapping ∈ mappings, validateIdentityMapping mapping = .ok () ∧
      identities.get? mapping.mongodbPrincipalHash = none) ∧
      (mappings.map (·.mongodbPrincipalHash)).Nodup := by
  induction mappings generalizing identities with
  | nil => simp
  | cons mapping rest ih =>
    obtain ⟨hvalid, hnew, hrest⟩ := insertMappings_cons h
    obtain ⟨hentries, hnodup⟩ := ih hrest
    have hother : ∀ entry ∈ rest, entry.mongodbPrincipalHash ≠ mapping.mongodbPrincipalHash := by
      intro entry hentry heq
      have hnone := (hentries entry hentry).2
      rw [heq, Table.get?_insert_self] at hnone
      cases hnone
    refine ⟨?_, ?_⟩
    · intro entry hentry
      rcases List.mem_cons.mp hentry with rfl | hentry
      · exact ⟨hvalid, hnew⟩
      · obtain ⟨hentryValid, hnone⟩ := hentries entry hentry
        rw [Table.get?_insert_of_ne _ _ (hother entry hentry)] at hnone
        exact ⟨hentryValid, hnone⟩
    · rw [List.map_cons, List.nodup_cons]
      refine ⟨fun hmem => ?_, hnodup⟩
      obtain ⟨entry, hentry, heq⟩ := List.mem_map.mp hmem
      exact hother entry hentry heq

/-- Valid entries are all added, or one of them is a second one for its principal. -/
theorem insertMappings_of_valid {mappings : List IdentityMappingEntry}
    (hvalid : ∀ mapping ∈ mappings, validateIdentityMapping mapping = .ok ())
    (identities : Identities) :
    (∃ result, insertMappings identities mappings = .ok result) ∨
      insertMappings identities mappings = .error duplicateHash := by
  induction mappings generalizing identities with
  | nil => exact .inl ⟨identities, rfl⟩
  | cons mapping rest ih =>
    rw [insertMappings_cons_of_valid (hvalid mapping (by simp))]
    split
    · exact ih (fun entry hentry => hvalid entry (by simp [hentry])) _
    · exact .inr rfl

/-- Entries for different principals are not refused as duplicates. -/
theorem insertMappings_ne_duplicate {mappings : List IdentityMappingEntry}
    (hvalid : ∀ mapping ∈ mappings, validateIdentityMapping mapping = .ok ())
    (hnodup : (mappings.map (·.mongodbPrincipalHash)).Nodup) {identities : Identities}
    (hnew : ∀ mapping ∈ mappings, identities.get? mapping.mongodbPrincipalHash = none) :
    insertMappings identities mappings ≠ .error duplicateHash := by
  induction mappings generalizing identities with
  | nil => exact fun h => by cases h
  | cons mapping rest ih =>
    rw [List.map_cons, List.nodup_cons] at hnodup
    rw [insertMappings_cons_of_valid (hvalid mapping (by simp)), hnew mapping (by simp)]
    refine ih (fun entry hentry => hvalid entry (by simp [hentry])) hnodup.2 ?_
    intro entry hentry
    have hother : entry.mongodbPrincipalHash ≠ mapping.mongodbPrincipalHash := by
      intro heq
      exact hnodup.1 (List.mem_map.mpr ⟨entry, hentry, heq⟩)
    rw [Table.get?_insert_of_ne _ _ hother]
    exact hnew entry (by simp [hentry])

section Accepted

variable {serde : Serde} {encoded : Bytes} {document : IdentityMappingDocument}
  (hdecode : serde.decode IdentityMappingDocument.codec encoded = some document)

include hdecode

/-- A well-formed document is read by adding its entries. -/
private theorem parseIdentityMappings_eq (hwell : document.WellFormed) :
    parseIdentityMappings serde encoded = insertMappings .empty document.mappings := by
  unfold parseIdentityMappings
  simp only [hdecode, hwell.version, decide_true]
  have hlength : decide (document.mappings.length ≤ 1000) = true := decide_eq_true hwell.length
  rw [hlength]
  rfl

/-- A document that is accepted is well formed and names no principal twice. -/
theorem wellFormed_of_parseIdentityMappings {identities : Identities}
    (h : parseIdentityMappings serde encoded = .ok identities) :
    document.WellFormed ∧ document.principalHashes.Nodup := by
  unfold parseIdentityMappings at h
  rw [hdecode] at h
  obtain ⟨hversion, h⟩ := ensure_bind_ok h
  obtain ⟨hlength, h⟩ := ensure_bind_ok h
  obtain ⟨hentries, hnodup⟩ := insertMappings_ok h
  exact ⟨⟨by simpa using hversion, by simpa using hlength, fun entry hentry =>
    (hentries entry hentry).1⟩, hnodup⟩

/-- A well-formed document that names no principal twice is accepted. -/
theorem parseIdentityMappings_of_nodup (hwell : document.WellFormed)
    (hnodup : document.principalHashes.Nodup) :
    ∃ identities, parseIdentityMappings serde encoded = .ok identities := by
  rw [parseIdentityMappings_eq hdecode hwell]
  refine (insertMappings_of_valid hwell.entries .empty).resolve_right ?_
  exact insertMappings_ne_duplicate hwell.entries hnodup fun _ _ => rfl

/-- A well-formed document that names a principal twice is refused for it. -/
theorem parseIdentityMappings_of_not_nodup (hwell : document.WellFormed)
    (hdup : ¬document.principalHashes.Nodup) :
    parseIdentityMappings serde encoded = .error duplicateHash := by
  have heq := parseIdentityMappings_eq hdecode hwell
  rcases insertMappings_of_valid hwell.entries .empty with ⟨result, hresult⟩ | herror
  · exact absurd (insertMappings_ok hresult).2 hdup
  · rw [heq, herror]

end Accepted

end MongoDam.Outpost
