import MongoDam.Protocol.Message

/-!
# Encoding frames

The wire form of `OP_MSG` frames, as a client writes it: documents built from
encoded elements, body and document-sequence sections, and the message header. Legacy
replies are written as a server does.
The decoder never calls these functions; they give the frames that concrete runs
of the decoder and the processor start from.
-/

namespace MongoDam.Protocol

open Lib

/-- A document from its encoded elements. -/
def encodeDocument (elements : Bytes) : Bytes :=
  leBytes 4 (elements.length + 5) ++ elements ++ [0]

/-- An element from its type, key and encoded value. -/
def encodeElement (elementType : UInt8) (key : String) (value : Bytes) : Bytes :=
  elementType :: toUtf8 key ++ 0 :: value

def encodeString (key text : String) : Bytes :=
  encodeElement 0x02 key (leBytes 4 ((toUtf8 text).length + 1) ++ toUtf8 text ++ [0])

def encodeInt32 (key : String) (value : ℕ) : Bytes := encodeElement 0x10 key (leBytes 4 value)

def encodeBoolean (key : String) (value : Bool) : Bytes :=
  encodeElement 0x08 key [if value then 1 else 0]

def encodeEmbedded (key : String) (elements : Bytes) : Bytes :=
  encodeElement 0x03 key (encodeDocument elements)

/-- A kind 0 section. -/
def encodeBody (elements : Bytes) : Bytes := 0 :: encodeDocument elements

/-- A kind 1 section. -/
def encodeSequence (identifier : String) (documents : List Bytes) : Bytes :=
  let content := toUtf8 identifier ++ 0 :: documents.flatten
  1 :: leBytes 4 (content.length + 4) ++ content

def encodeOpMsg (requestId responseTo flags : ℕ) (sections : Bytes) : Bytes :=
  leBytes 4 (sections.length + 20) ++ leBytes 4 requestId ++ leBytes 4 responseTo ++
    leBytes 4 OP_MSG.toNat ++ leBytes 4 flags ++ sections

/-- A legacy query of a namespace. -/
def encodeOpQuery (requestId : ℕ) (name : String) (document : Bytes) : Bytes :=
  let content := leBytes 4 0 ++ toUtf8 name ++ 0 :: leBytes 4 0 ++ leBytes 4 0 ++ document
  leBytes 4 (content.length + 16) ++ leBytes 4 requestId ++ leBytes 4 0 ++
    leBytes 4 OP_QUERY.toNat ++ content

/-- A legacy reply of its documents, at the start of its cursor. -/
def encodeOpReply (requestId responseTo flags : ℕ) (documents : List Bytes) : Bytes :=
  leBytes 4 (documents.flatten.length + 36) ++ leBytes 4 requestId ++ leBytes 4 responseTo ++
    leBytes 4 OP_REPLY.toNat ++ leBytes 4 flags ++ leBytes 8 0 ++ leBytes 4 0 ++
    leBytes 4 documents.length ++ documents.flatten

/-- Decompressors that reject all data, for frames that are not compressed. -/
def Decompressors.rejecting : Decompressors where
  snappyLength := fun _ => .error ""
  snappy := fun _ => .error ""
  zlib := fun _ _ => .error ""
  zstd := fun _ _ => .error ""

end MongoDam.Protocol
