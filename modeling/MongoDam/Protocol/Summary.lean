import MongoDam.Protocol.BsonJson

/-!
# Command and response summaries of BSON documents

A summary keeps the first key of a document, a fixed set of top-level fields, and
the JSON form of a complete command document. `summarizeBsonInner` walks a whole
document and fails on bad BSON; `summarizeBsonPrefix` walks as much of a document
as was captured and stops at the first element it cannot finish.
-/

namespace MongoDam.Protocol

open Lib

/-- What the decoder extracts from a document. -/
structure BsonSummary where
  firstKey : Option String := none
  firstString : Option String := none
  database : Option String := none
  collection : Option String := none
  ok : Option Bool := none
  code : Option ℤ := none
  codeName : Option String := none
  authMechanism : Option String := none
  principal : Option String := none
  speculativeAuth : Bool := false
  deleteScope : Option DeleteScope := none
  deleteStatements : Option ℕ := none
  affectedCount : Option ℕ := none
  authDone : Option Bool := none
  query : Option JsonValue := none
  deriving DecidableEq

/-! ### Command tables -/

def commandCapturesQuery (command : String) : Bool :=
  command ∈ ["find", "aggregate", "insert", "update", "delete"]

/-- Commands whose first value names a collection. -/
def commandHasCollectionArgument (command : String) : Bool :=
  command ∈ ["aggregate", "clonecollectionascapped", "collmod", "compact", "converttocapped",
    "count", "create", "createindexes", "delete", "distinct", "drop", "dropindexes", "emptycapped",
    "find", "findandmodify", "geosearch", "getmore", "insert", "killcursors", "listindexes",
    "mapreduce", "parallelcollectionscan", "renamecollection", "update", "validate"]

/-- Commands whose first value names a user. -/
def commandHasPrincipalArgument (command : String) : Bool :=
  command ∈ ["createuser", "dropuser", "grantrolestouser", "revokerolesfromuser", "updateuser",
    "usersinfo"]

def commandFromSummary (summary : BsonSummary) : Option MongoCommand :=
  summary.firstKey.map fun name =>
    let normalized := toAsciiLowercase name
    { name
      database := summary.database
      collection :=
        if commandHasCollectionArgument normalized then summary.firstString.or summary.collection
        else none
      authMechanism := summary.authMechanism
      principal := summary.principal.or
        (if commandHasPrincipalArgument normalized then summary.firstString else none)
      speculativeAuth := summary.speculativeAuth
      deleteScope := if normalized = "delete" then summary.deleteScope else none
      deleteStatements := if normalized = "delete" then summary.deleteStatements else none
      query := summary.query }

/-! ### SCRAM user names -/

/-- Replace every occurrence of the escape `=ab`, from left to right. -/
def replaceEscape (a b replacement : Char) : List Char → List Char
  | '=' :: x :: y :: rest =>
    if x = a ∧ y = b then replacement :: replaceEscape a b replacement rest
    else '=' :: replaceEscape a b replacement (x :: y :: rest)
  | c :: rest => c :: replaceEscape a b replacement rest
  | [] => []

/-- A field `n=<name>` with a name that is not empty. -/
def scramNameField : List Char → Option (List Char)
  | 'n' :: '=' :: value => if value = [] then none else some value
  | _ => none

/-- A Unicode control character. -/
def isControl (c : Char) : Bool := c.toNat < 0x20 ∨ (0x7f ≤ c.toNat ∧ c.toNat < 0xa0)

/-- The UTF-8 length of a text. -/
def utf8Length (text : List Char) : ℕ := (text.map Char.utf8Size).sum

/-- The user name in a SCRAM client-first message. -/
def parseScramPrincipal (payload : Bytes) : Option String :=
  match fromUtf8 payload with
  | none => none
  | some text =>
    match (text.toList.splitOn ',').findSome? scramNameField with
    | none => none
    | some encoded =>
      if 768 < utf8Length encoded then none
      else
        let decoded := replaceEscape '3' 'D' '=' (replaceEscape '2' 'C' ',' encoded)
        if decoded ≠ [] ∧ utf8Length decoded ≤ 256 ∧ decoded.any isControl = false then
          some (String.ofList decoded)
        else none

/-! ### Delete statements -/

/-- The element loop of `deleteStatementLimit`. -/
def deleteStatementLimitLoop (statement : Bytes) (offset : ℕ) : Except DecodeError (Option ℤ) :=
  if h : offset < statement.length - 1 then
    match _hkey : readCstring statement (offset + 1) with
    | .error e => .error e
    | .ok (key, afterKey) =>
      match _hskip : skipValue statement afterKey
          (getElem statement offset (Nat.lt_of_lt_pred h)) with
      | .error e => .error e
      | .ok next =>
        if key = "limit" then
          .ok (readI32ish statement afterKey (getElem statement offset (Nat.lt_of_lt_pred h)))
        else deleteStatementLimitLoop statement next
  else .ok none
termination_by statement.length - offset
decreasing_by
  have hadvance := readCstring_lt _hkey
  have hnext := skipValue_le _hskip
  omega

/-- The `limit` of one delete statement. -/
def deleteStatementLimit (statement : Bytes) : Except DecodeError (Option ℤ) :=
  if isContainer statement then deleteStatementLimitLoop statement 4 else .error .invalidBson

/-- Which limits occurred among delete statements, and how many statements there were. -/
structure DeleteTally where
  statements : ℕ := 0
  hasSingle : Bool := false
  hasMulti : Bool := false
  deriving DecidableEq

/-- Count one statement with its limit; the counter saturates at 32 bits. -/
def DeleteTally.count (tally : DeleteTally) (limit : Option ℤ) : DeleteTally where
  statements := saturateU32 (tally.statements + 1)
  hasSingle := tally.hasSingle || limit = some 1
  hasMulti := tally.hasMulti || limit = some 0

/-- The scope that the counted limits amount to. -/
def DeleteTally.scope (tally : DeleteTally) : Option DeleteScope :=
  match tally.hasSingle, tally.hasMulti with
  | true, true => some .mixed
  | true, false => some .single
  | false, true => some .multi
  | false, false => none

/-- The element loop of `summarizeDeleteStatements`. -/
def deleteStatementsLoop (array : Bytes) (offset : ℕ) (tally : DeleteTally) :
    Except DecodeError DeleteTally :=
  if h : offset < array.length - 1 then
    match _hkey : readCstring array (offset + 1) with
    | .error e => .error e
    | .ok (_, afterKey) =>
      match _hskip : skipValue array afterKey
          (getElem array offset (Nat.lt_of_lt_pred h)) with
      | .error e => .error e
      | .ok next =>
        -- only embedded documents are statements
        if getElem array offset (Nat.lt_of_lt_pred h) ≠ 0x03 then
          deleteStatementsLoop array next tally
        else
          match sliceBson array afterKey next >>= deleteStatementLimit with
          | .error e => .error e
          | .ok limit => deleteStatementsLoop array next (tally.count limit)
  else .ok tally
termination_by array.length - offset
decreasing_by
  all_goals
    have hadvance := readCstring_lt _hkey
    have hnext := skipValue_le _hskip
    omega

/-- Scope and number of the statements in a `deletes` array. -/
def summarizeDeleteStatements (array : Bytes) : Except DecodeError (Option DeleteScope × ℕ) :=
  if isContainer array then
    (deleteStatementsLoop array 4 {}).map (fun tally => (tally.scope, tally.statements))
  else .error .invalidBson

/-- The loop of `summarizeDeleteDocumentSequence`. -/
def deleteSequenceLoop (documents : Bytes) (offset : ℕ) (tally : DeleteTally) :
    Except DecodeError DeleteTally :=
  if offset < documents.length then
    match readI32 documents offset with
    | .error e => .error e
    | .ok length =>
      if length < 5 then .error .invalidBson
      else if documents.length < offset + length.toNat then .error .invalidBson
      else
        match sliceBson documents offset (offset + length.toNat) >>= deleteStatementLimit with
        | .error e => .error e
        | .ok limit => deleteSequenceLoop documents (offset + length.toNat) (tally.count limit)
  else .ok tally
termination_by documents.length - offset

/-- Scope and number of the statements in a `deletes` document sequence. -/
def summarizeDeleteDocumentSequence (documents : Bytes) :
    Except DecodeError (Option DeleteScope × ℕ) :=
  (deleteSequenceLoop documents 0 {}).map (fun tally => (tally.scope, tally.statements))

/-! ### Summaries -/

/-- Record the first element's key and string value. -/
def recordFirst (document : Bytes) (ordinal : ℕ) (elementType : UInt8) (key : String)
    (valueStart : ℕ) (summary : BsonSummary) : BsonSummary :=
  if ordinal = 0 then
    { summary with
      firstKey := some key
      firstString :=
        if elementType = 0x02 then (readBsonString document valueStart).toOption
        else summary.firstString }
  else summary

/-- Merge what an embedded speculative authentication document reports. -/
def mergeSpeculative (nested summary : BsonSummary) : BsonSummary :=
  { summary with
    speculativeAuth :=
      match nested.firstKey with
      | some name => toAsciiLowercase name = "saslstart"
      | none => false
    authMechanism := nested.authMechanism.or summary.authMechanism
    principal := nested.principal.or summary.principal
    authDone := nested.authDone.or summary.authDone }

/-- Record a top-level field. `next` is the offset behind its value when the value
is complete; `nested` summarizes an embedded document where that is allowed. -/
def recordField (nested : Option (Bytes → Except DecodeError BsonSummary)) (document : Bytes)
    (elementType : UInt8) (key : String) (valueStart : ℕ) (next : Option ℕ)
    (summary : BsonSummary) : BsonSummary :=
  match key with
  | "$db" =>
    if elementType = 0x02 then
      { summary with database := (readBsonString document valueStart).toOption }
    else summary
  | "collection" =>
    if elementType = 0x02 then
      { summary with collection := (readBsonString document valueStart).toOption }
    else summary
  | "ok" => { summary with ok := readBoolish document valueStart elementType }
  | "code" => { summary with code := readI32ish document valueStart elementType }
  | "n" => { summary with affectedCount := readU64ish document valueStart elementType }
  | "done" => { summary with authDone := readBoolish document valueStart elementType }
  | "codeName" =>
    if elementType = 0x02 then
      { summary with codeName := (readBsonString document valueStart).toOption }
    else summary
  | "mechanism" =>
    if elementType = 0x02 then
      { summary with authMechanism := (readBsonString document valueStart).toOption }
    else summary
  | "user" =>
    if elementType = 0x02 then
      { summary with principal := (readBsonString document valueStart).toOption }
    else summary
  | "payload" =>
    if elementType = 0x05 then
      { summary with
        principal := ((readBsonBinary document valueStart).toOption.bind parseScramPrincipal).or
          summary.principal }
    else summary
  | "speculativeAuthenticate" =>
    if elementType = 0x03 then
      match nested, next.bind (slice? document valueStart) with
      | some summarize, some value =>
        match summarize value with
        | .ok inner => mergeSpeculative inner summary
        | .error _ => summary
      | _, _ => summary
    else summary
  | "deletes" =>
    if elementType = 0x04 then
      match next.bind (slice? document valueStart) with
      | some value =>
        match summarizeDeleteStatements value with
        | .ok (scope, statements) =>
          { summary with deleteScope := scope, deleteStatements := some statements }
        | .error _ => summary
      | none => summary
    else summary
  | _ => summary

/-- Everything one element adds to a summary. -/
def recordElement (nested : Option (Bytes → Except DecodeError BsonSummary)) (document : Bytes)
    (ordinal : ℕ) (elementType : UInt8) (key : String) (valueStart : ℕ) (next : Option ℕ)
    (summary : BsonSummary) : BsonSummary :=
  recordField nested document elementType key valueStart next
    (recordFirst document ordinal elementType key valueStart summary)

/-- The element loop of `summarizeBsonInner`. -/
def summarizeLoop (nested : Option (Bytes → Except DecodeError BsonSummary)) (document : Bytes)
    (offset ordinal : ℕ) (summary : BsonSummary) : Except DecodeError BsonSummary :=
  if h : offset < document.length - 1 then
    match _hkey : readCstring document (offset + 1) with
    | .error e => .error e
    | .ok (key, afterKey) =>
      match _hskip : skipValue document afterKey
          (getElem document offset (Nat.lt_of_lt_pred h)) with
      | .error e => .error e
      | .ok next =>
        if document.length - 1 < next then .error .invalidBson
        else summarizeLoop nested document next (ordinal + 1)
          (recordElement nested document ordinal (getElem document offset (Nat.lt_of_lt_pred h)) key
            afterKey (some next) summary)
  else .ok summary
termination_by document.length - offset
decreasing_by
  have hadvance := readCstring_lt _hkey
  have hnext := skipValue_le _hskip
  omega

/-- The first key names a command whose document is captured. -/
def capturesQuery (summary : BsonSummary) : Bool :=
  match summary.firstKey with
  | some command => commandCapturesQuery (toAsciiLowercase command)
  | none => false

/-- Attach the JSON form of a complete command document. -/
def attachQuery (document : Bytes) (summary : BsonSummary) : BsonSummary :=
  if capturesQuery summary then
    { summary with query := (bsonDocumentToJson document).toOption }
  else summary

/-- A summary of a whole document. -/
def summarizeWith (nested : Option (Bytes → Except DecodeError BsonSummary)) (document : Bytes) :
    Except DecodeError BsonSummary :=
  if isContainer document then (summarizeLoop nested document 4 0 {}).map (attachQuery document)
  else .error .invalidBson

/-- Only a top-level document may carry speculative authentication. -/
def summarizeBsonInner (document : Bytes) (allowSpeculativeAuth : Bool) :
    Except DecodeError BsonSummary :=
  summarizeWith (if allowSpeculativeAuth then some (summarizeWith none) else none) document

def summarizeBson (document : Bytes) : Except DecodeError BsonSummary :=
  summarizeBsonInner document true

/-- The element loop of `summarizeBsonPrefix`: it stops, without failing, at an
element whose key or value is not wholly available. -/
def summarizePrefixLoop (document : Bytes) (availableEnd offset ordinal : ℕ)
    (summary : BsonSummary) : BsonSummary :=
  if offset < availableEnd then
    match document[offset]? with
    | none => summary
    | some elementType =>
      match _hkey : readCstring document (offset + 1) with
      | .error _ => summary
      | .ok (key, afterKey) =>
        match skipValue document afterKey elementType with
        | .error _ =>
          recordElement (some (summarizeWith none)) document ordinal elementType key afterKey none
            summary
        | .ok next =>
          if afterKey < next ∧ next ≤ availableEnd then
            summarizePrefixLoop document availableEnd next (ordinal + 1)
              (recordElement (some (summarizeWith none)) document ordinal elementType key afterKey
                (some next) summary)
          else
            recordElement (some (summarizeWith none)) document ordinal elementType key afterKey
              (some next) summary
  else summary
termination_by availableEnd - offset
decreasing_by
  have hadvance := readCstring_lt _hkey
  omega

/-- A summary of the captured beginning of a document. -/
def summarizeBsonPrefix (document : Bytes) : Except DecodeError BsonSummary :=
  if document.length < 5 then .error .truncated
  else
    match readI32 document 0 with
    | .error e => .error e
    | .ok declared =>
      if declared < 5 then .error .invalidBson
      else if declared.toNat ≤ document.length then
        summarizeBsonInner (document.take declared.toNat) true
      else
        let summary :=
          summarizePrefixLoop document (min document.length (declared.toNat - 1)) 4 0 {}
        if summary.firstKey = none then .error .truncated else .ok summary

end MongoDam.Protocol
