import MongoDam.Lib.Bytes

/-!
# DNS messages

Header and first question of a DNS message. A name is a sequence of labels that
may continue at a compression pointer; at most sixteen pointers are followed.
-/

namespace MongoDam.Observer

open Lib

/-- The fields the processor uses. -/
structure DecodedDnsMessage where
  queryId : ℕ
  response : Bool
  responseCode : ℕ
  answerCount : ℕ
  name : Option String
  recordType : Option String
  deriving DecidableEq

/-- A big-endian 16-bit integer. -/
def readNetworkU16 (bytes : Bytes) (offset : ℕ) : Except String ℕ :=
  match slice? bytes offset (offset + 2) with
  | some [high, low] => .ok (high.toNat * 256 + low.toNat)
  | _ => .error "truncated DNS integer"

/-- A byte allowed in a label. -/
def isLabelByte (b : UInt8) : Bool :=
  let n := b.toNat
  (0x30 ≤ n ∧ n ≤ 0x39) ∨ (0x41 ≤ n ∧ n ≤ 0x5a) ∨ (0x61 ≤ n ∧ n ≤ 0x7a) ∨ n = 0x2d ∨ n = 0x5f

/-- Labels joined by dots, in lower case. -/
def joinLabels (labels : List Bytes) : String :=
  String.ofList (['.'].intercalate (labels.map (fun label =>
    label.map (fun b => (Char.ofNat b.toNat).toLower))))

/-- The loop of `parseDnsName`. -/
def parseDnsNameLoop (bytes : Bytes) (labels : List Bytes) (cursor : ℕ) (afterName : Option ℕ)
    (jumps decodedBytes : ℕ) : Except String (String × ℕ) :=
  match _hget : bytes[cursor]? with
  | none => .error "truncated DNS name"
  | some length =>
    if length.toNat / 64 = 3 then
      match bytes[cursor + 1]? with
      | none => .error "truncated DNS compression pointer"
      | some second =>
        if 16 < jumps + 1 then .error "DNS compression pointer loop"
        else
          parseDnsNameLoop bytes labels (length.toNat % 64 * 256 + second.toNat)
            (some (afterName.getD (cursor + 2))) (jumps + 1) decodedBytes
    else if length.toNat / 64 ≠ 0 then .error "invalid DNS label type"
    else if length = 0 then .ok (joinLabels labels, afterName.getD (cursor + 1))
    else
      match slice? bytes (cursor + 1) (cursor + 1 + length.toNat) with
      | none => .error "truncated DNS label"
      | some label =>
        if !label.all isLabelByte then .error "DNS label contains unsupported bytes"
        else if 254 < decodedBytes + (label.length + 1) then
          .error "DNS name exceeds protocol limit"
        else
          parseDnsNameLoop bytes (labels ++ [label]) (cursor + 1 + length.toNat) afterName jumps
            (decodedBytes + (label.length + 1))
termination_by (17 - jumps, bytes.length - cursor)
decreasing_by
  · apply Prod.Lex.left
    omega
  · apply Prod.Lex.right
    have hlt := (List.getElem?_eq_some_iff.mp _hget).1
    omega

def parseDnsName (bytes : Bytes) (offset : ℕ) : Except String (String × ℕ) :=
  parseDnsNameLoop bytes [] offset none 0 0

def dnsRecordType (value : ℕ) : String :=
  match value with
  | 1 => "A"
  | 2 => "NS"
  | 5 => "CNAME"
  | 6 => "SOA"
  | 12 => "PTR"
  | 15 => "MX"
  | 16 => "TXT"
  | 28 => "AAAA"
  | 33 => "SRV"
  | 41 => "OPT"
  | 255 => "ANY"
  | other => toString other

def decodeDnsMessage (bytes : Bytes) : Except String DecodedDnsMessage :=
  if bytes.length < 12 then .error "truncated DNS header"
  else do
    let queryId ← readNetworkU16 bytes 0
    let flags ← readNetworkU16 bytes 2
    let questionCount ← readNetworkU16 bytes 4
    let answerCount ← readNetworkU16 bytes 6
    let (name, recordType) ←
      if 0 < questionCount then do
        let (name, afterName) ← parseDnsName bytes 12
        let recordType ← readNetworkU16 bytes afterName
        let _ ← readNetworkU16 bytes (afterName + 2)
        pure (some name, some (dnsRecordType recordType))
      else pure (none, none)
    return { queryId, response := flags / 2 ^ 15 % 2 = 1, responseCode := flags % 16, answerCount,
             name, recordType }

end MongoDam.Observer
