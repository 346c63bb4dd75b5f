import MongoDam.Lib.Bytes
import MongoDam.Lib.Json
import Mathlib.Data.List.Nodup

/-!
# Composed JSON codecs

A codec writes values as documents and reads them back, and knows how deep its
documents are nested. A record codec is composed field by field: it is written as
an object in the order of its fields, without the fields that are absent, and read
from an object with distinct known keys, or from an array of its leading fields.
Reading what was written gives the value back, up to `reread` for values that are
kept as dynamic documents.
-/

namespace MongoDam.Lib

/-- A writer and a reader of documents. Writing fails for a value outside the range of
its type. -/
structure Codec (α : Type) where
  write : α → Option JsonValue
  read : JsonValue → Option α
  reread : α → α
  depth : α → ℕ
  read_write : ∀ {value document}, write value = some document → read document = some (reread value)
  depth_write : ∀ {value document}, write value = some document → document.depth = depth value
  write_ne_null : ∀ value, write value ≠ some .null

/-- A writer and a reader of one field, which may be absent. -/
structure Slot (α : Type) where
  write : α → Option (Option JsonValue)
  read : Option JsonValue → Option α
  reread : α → α
  depth : α → ℕ
  read_write : ∀ {value slot}, write value = some slot → read slot = some (reread value)
  depth_write : ∀ {value slot}, write value = some slot → slot.elim 0 JsonValue.depth = depth value

namespace JsonValue

/-- The members of the fields that are present. -/
def members (entries : List (String × Option JsonValue)) : List (String × JsonValue) :=
  entries.filterMap fun entry => entry.2.map fun value => (entry.1, value)

/-- The fields of an object by their names. Unknown and repeated names are errors. -/
def objectFields (known : List String) : JsonValue → Option (String → Option JsonValue)
  | .object members =>
    if (members.map Prod.fst).Nodup ∧ ∀ key ∈ members.map Prod.fst, key ∈ known then
      some fun key => members.lookup key
    else none
  | _ => none

/-- The fields of a record, given as an object or as the list of its leading fields. -/
def recordFields (known : List String) : JsonValue → Option (String → Option JsonValue)
  | .array values =>
    if values.length ≤ known.length then some fun key => (known.zip values).lookup key else none
  | document => objectFields known document

/-- The variant name in an enumeration value: a string, or an object that maps the name to
null. -/
def variantName : JsonValue → Option String
  | .string name => some name
  | .object [(name, .null)] => some name
  | _ => none

mutual

/-- A document read as a dynamic value: objects become ordered maps, in which a later
member replaces an earlier one, and doubles are read from their text. -/
def toValue (readDouble : ℕ → ℕ) : JsonValue → JsonValue
  | .number (.double bits) => .number (.double (readDouble bits))
  | .array values => .array (toValueList readDouble values)
  | .object members => .ofMembers (toValueMembers readDouble members)
  | value => value

def toValueList (readDouble : ℕ → ℕ) : List JsonValue → List JsonValue
  | [] => []
  | value :: rest => value.toValue readDouble :: toValueList readDouble rest

def toValueMembers (readDouble : ℕ → ℕ) : List (String × JsonValue) → List (String × JsonValue)
  | [] => []
  | (key, value) :: rest => (key, value.toValue readDouble) :: toValueMembers readDouble rest

end

/-! ### Members -/

private theorem members_keys (entries : List (String × Option JsonValue)) :
    ((members entries).map Prod.fst).Sublist (entries.map Prod.fst) := by
  induction entries with
  | nil => exact .refl _
  | cons entry rest ih =>
    obtain ⟨key, value⟩ := entry
    cases value with
    | none => simpa [members] using ih.cons key
    | some value => simpa [members] using ih

private theorem lookup_members {entries : List (String × Option JsonValue)}
    (hnodup : (entries.map Prod.fst).Nodup) {key : String} {value : Option JsonValue}
    (hentry : (key, value) ∈ entries) : (members entries).lookup key = value := by
  induction entries with
  | nil => cases hentry
  | cons entry rest ih =>
    obtain ⟨name, first⟩ := entry
    obtain ⟨hfresh, hrest⟩ := List.nodup_cons.mp hnodup
    rcases List.mem_cons.mp hentry with hhead | htail
    · cases hhead
      cases value with
      | none =>
        have habsent : (members rest).lookup key = none := by
          rw [List.lookup_eq_none_iff]
          intro member hmember
          have hkey := (members_keys rest).subset (List.mem_map_of_mem hmember)
          have hne : key ≠ member.1 := fun h => hfresh (h ▸ hkey)
          simpa using hne
        simpa [members] using habsent
      | some value => simp [members]
    · have hkey : key ∈ rest.map Prod.fst := List.mem_map.mpr ⟨_, htail, rfl⟩
      have hne : key ≠ name := fun h => hfresh (h ▸ hkey)
      have hne' : (key == name) = false := by simpa using hne
      cases first with
      | none => simpa [members] using ih hrest htail
      | some first => simpa [members, List.lookup_cons, hne'] using ih hrest htail

/-- A written object has exactly the fields that were present. -/
theorem objectFields_members {known : List String} {entries : List (String × Option JsonValue)}
    (hknown : entries.map Prod.fst = known) (hnodup : known.Nodup) :
    ∃ field, objectFields known (.object (members entries)) = some field ∧
      ∀ entry ∈ entries, field entry.1 = entry.2 := by
  subst hknown
  have hkeys := members_keys entries
  refine ⟨fun key => (members entries).lookup key, ?_, fun entry hentry =>
    lookup_members hnodup hentry⟩
  simp only [objectFields]
  rw [if_pos ⟨hkeys.nodup hnodup, fun key hkey => hkeys.subset hkey⟩]

/-! ### Depth -/

private theorem depthMembers_append (first second : List (String × JsonValue)) :
    depthMembers (first ++ second) = max (depthMembers first) (depthMembers second) := by
  induction first with
  | nil => simp [depthMembers]
  | cons member rest ih =>
    obtain ⟨key, value⟩ := member
    simp [depthMembers, ih, Nat.max_assoc]

private theorem depthMembers_members_append (entries more : List (String × Option JsonValue)) :
    depthMembers (members (entries ++ more)) =
      max (depthMembers (members entries)) (depthMembers (members more)) := by
  rw [members, List.filterMap_append]
  exact depthMembers_append _ _

private theorem depthMembers_entry (key : String) (slot : Option JsonValue) :
    depthMembers (members [(key, slot)]) = slot.elim 0 JsonValue.depth := by
  cases slot with
  | none => simp [members, depthMembers]
  | some value => simp [members, depthMembers]

end JsonValue

/-! ### Records -/

/-- A union of named variants, each with its own content. -/
structure Variants (α : Type) where
  write : α → Option (String × JsonValue)
  read : String → JsonValue → Option α
  reread : α → α
  depth : α → ℕ
  read_write : ∀ {value name content}, write value = some (name, content) →
    read name content = some (reread value)
  depth_write : ∀ {value name content}, write value = some (name, content) →
    content.depth = depth value

/-- The fields of a record `σ` that have been composed so far, and the value `α` that is
built from them. -/
structure Fields (σ α : Type) where
  keys : List String
  write : σ → Option (List (String × Option JsonValue))
  read : (String → Option JsonValue) → Option α
  reread : σ → α
  depth : σ → ℕ
  keys_write : ∀ {value entries}, write value = some entries → entries.map Prod.fst = keys
  read_write : ∀ {value entries field}, write value = some entries →
    (∀ entry ∈ entries, field entry.1 = entry.2) → read field = some (reread value)
  depth_write : ∀ {value entries}, write value = some entries →
    JsonValue.depthMembers (JsonValue.members entries) = depth value

namespace Fields

variable {σ α β : Type}

/-- No fields yet. -/
def start (build : α) : Fields σ α where
  keys := []
  write _ := some []
  read _ := some build
  reread _ := build
  depth _ := 0
  keys_write h := by
    cases h
    rfl
  read_write _ _ := rfl
  depth_write h := by
    cases h
    simp [JsonValue.members, JsonValue.depthMembers]

/-- One more field. -/
def field (fields : Fields σ (β → α)) (key : String) (slot : Slot β) (get : σ → β) :
    Fields σ α where
  keys := fields.keys ++ [key]
  write value := do
    let entries ← fields.write value
    let written ← slot.write (get value)
    return entries ++ [(key, written)]
  read lookup := do
    let build ← fields.read lookup
    let part ← slot.read (lookup key)
    return build part
  reread value := fields.reread value (slot.reread (get value))
  depth value := max (fields.depth value) (slot.depth (get value))
  keys_write := by
    intro value all hall
    obtain ⟨entries, hentries, hall⟩ := Option.bind_eq_some_iff.mp hall
    obtain ⟨written, hwritten, hall⟩ := Option.bind_eq_some_iff.mp hall
    cases hall
    simp [fields.keys_write hentries]
  read_write := by
    intro value all lookup hall hlookup
    obtain ⟨entries, hentries, hall⟩ := Option.bind_eq_some_iff.mp hall
    obtain ⟨written, hwritten, hall⟩ := Option.bind_eq_some_iff.mp hall
    cases hall
    have hbuild := fields.read_write hentries fun entry hentry =>
      hlookup entry (List.mem_append_left _ hentry)
    have hpart : lookup key = written :=
      hlookup (key, written) (List.mem_append_right _ (List.mem_singleton_self _))
    simp [hbuild, hpart, slot.read_write hwritten]
  depth_write := by
    intro value all hall
    obtain ⟨entries, hentries, hall⟩ := Option.bind_eq_some_iff.mp hall
    obtain ⟨written, hwritten, hall⟩ := Option.bind_eq_some_iff.mp hall
    cases hall
    rw [JsonValue.depthMembers_members_append, JsonValue.depthMembers_entry,
      fields.depth_write hentries, slot.depth_write hwritten]

/-- A union as two more fields: the name of the variant and its content. -/
def tagged (fields : Fields σ (β → α)) (tag content : String) (union : Variants β) (get : σ → β) :
    Fields σ α where
  keys := fields.keys ++ [tag, content]
  write value := do
    let entries ← fields.write value
    let (name, document) ← union.write (get value)
    return entries ++ [(tag, some (.string name)), (content, some document)]
  read lookup := do
    let build ← fields.read lookup
    let name ← (← lookup tag).variantName
    let part ← union.read name (← lookup content)
    return build part
  reread value := fields.reread value (union.reread (get value))
  depth value := max (fields.depth value) (union.depth (get value))
  keys_write := by
    intro value all hall
    obtain ⟨entries, hentries, hall⟩ := Option.bind_eq_some_iff.mp hall
    obtain ⟨⟨name, document⟩, hwritten, hall⟩ := Option.bind_eq_some_iff.mp hall
    cases hall
    simp [fields.keys_write hentries]
  read_write := by
    intro value all lookup hall hlookup
    obtain ⟨entries, hentries, hall⟩ := Option.bind_eq_some_iff.mp hall
    obtain ⟨⟨name, document⟩, hwritten, hall⟩ := Option.bind_eq_some_iff.mp hall
    cases hall
    have hbuild := fields.read_write hentries fun entry hentry =>
      hlookup entry (List.mem_append_left _ hentry)
    have htag : lookup tag = some (.string name) :=
      hlookup (tag, some (.string name)) (List.mem_append_right _ (by simp))
    have hcontent : lookup content = some document :=
      hlookup (content, some document) (List.mem_append_right _ (by simp))
    simp [hbuild, htag, hcontent, JsonValue.variantName, union.read_write hwritten]
  depth_write := by
    intro value all hall
    obtain ⟨entries, hentries, hall⟩ := Option.bind_eq_some_iff.mp hall
    obtain ⟨⟨name, document⟩, hwritten, hall⟩ := Option.bind_eq_some_iff.mp hall
    cases hall
    rw [JsonValue.depthMembers_members_append, fields.depth_write hentries,
      ← union.depth_write hwritten]
    simp [JsonValue.members, JsonValue.depthMembers, JsonValue.depth]

/-- The codec of a record that is read from an object only. -/
def object (fields : Fields σ σ) (hnodup : fields.keys.Nodup) : Codec σ where
  write value := (fields.write value).map fun entries => .object (JsonValue.members entries)
  read document := (document.objectFields fields.keys).bind fields.read
  reread := fields.reread
  depth value := 1 + fields.depth value
  read_write := by
    intro value document hdocument
    obtain ⟨entries, hentries, rfl⟩ := Option.map_eq_some_iff.mp hdocument
    obtain ⟨field, hfield, hlookup⟩ :=
      JsonValue.objectFields_members (fields.keys_write hentries) hnodup
    rw [hfield, Option.bind_some, fields.read_write hentries hlookup]
  depth_write := by
    intro value document hdocument
    obtain ⟨entries, hentries, rfl⟩ := Option.map_eq_some_iff.mp hdocument
    rw [JsonValue.depth, fields.depth_write hentries]
  write_ne_null := by
    intro value h
    obtain ⟨entries, -, h⟩ := Option.map_eq_some_iff.mp h
    cases h

/-- The codec of a record. -/
def record (fields : Fields σ σ) (hnodup : fields.keys.Nodup) : Codec σ :=
  { fields.object hnodup with
    read := fun document => (document.recordFields fields.keys).bind fields.read
    read_write := by
      intro value document hdocument
      have hread := (fields.object hnodup).read_write hdocument
      obtain ⟨entries, hentries, rfl⟩ := Option.map_eq_some_iff.mp hdocument
      exact hread }

end Fields

/-! ### Basic codecs -/

namespace Codec

variable {α : Type}

def string : Codec String where
  write value := some (.string value)
  read
    | .string value => some value
    | _ => none
  reread := id
  depth _ := 0
  read_write h := by
    cases h
    rfl
  depth_write h := by
    cases h
    simp [JsonValue.depth]
  write_ne_null _ := nofun

def bool : Codec Bool where
  write value := some (.bool value)
  read
    | .bool value => some value
    | _ => none
  reread := id
  depth _ := 0
  read_write h := by
    cases h
    rfl
  depth_write h := by
    cases h
    simp [JsonValue.depth]
  write_ne_null _ := nofun

/-- Integers from `least` to `greatest`. -/
def bounded (least greatest : ℤ) : Codec ℤ where
  write value :=
    if least ≤ value ∧ value ≤ greatest then some (.number (.int value)) else none
  read
    | .number (.int value) => if least ≤ value ∧ value ≤ greatest then some value else none
    | _ => none
  reread := id
  depth _ := 0
  read_write := by
    intro value document h
    split at h
    · rename_i hrange
      cases h
      exact if_pos hrange
    · cases h
  depth_write := by
    intro value document h
    split at h
    · cases h
      simp [JsonValue.depth]
    · cases h
  write_ne_null := by
    intro value h
    split at h
    · cases h
    · cases h

/-- Signed integers of a width. -/
def signed (width : ℕ) : Codec ℤ := bounded (-2 ^ (width - 1)) (2 ^ (width - 1) - 1)

/-- Unsigned integers of a width. -/
def unsigned (width : ℕ) : Codec ℕ where
  write value := (bounded 0 (2 ^ width - 1)).write value
  read document := ((bounded 0 (2 ^ width - 1)).read document).map Int.toNat
  reread := id
  depth _ := 0
  read_write h := by rw [(bounded _ _).read_write h]; rfl
  depth_write h := (bounded _ _).depth_write h
  write_ne_null value := (bounded _ _).write_ne_null value

/-- An enumeration by the names of its values. -/
def enumeration (name : α → String) (values : List α)
    (hvalues : ∀ value, values.find? (fun other => name other = name value) = some value) :
    Codec α where
  write value := some (.string (name value))
  read document := document.variantName.bind fun text =>
    values.find? fun value => name value = text
  reread := id
  depth _ := 0
  read_write h := by
    cases h
    exact hvalues _
  depth_write h := by
    cases h
    simp [JsonValue.depth]
  write_ne_null _ := nofun

private theorem mapM_cons_eq_some {β : Type} {f : α → Option β} {value : α} {rest : List α}
    {results : List β} (h : (value :: rest).mapM f = some results) :
    ∃ first others, f value = some first ∧ rest.mapM f = some others ∧
      results = first :: others := by
  rw [List.mapM_cons] at h
  obtain ⟨first, hfirst, h⟩ := Option.bind_eq_some_iff.mp h
  obtain ⟨others, hothers, h⟩ := Option.bind_eq_some_iff.mp h
  cases h
  exact ⟨first, others, hfirst, hothers, rfl⟩

/-- A list, element by element. -/
def list (codec : Codec α) : Codec (List α) where
  write values := (values.mapM codec.write).map .array
  read
    | .array values => values.mapM codec.read
    | _ => none
  reread := List.map codec.reread
  depth values := 1 + values.foldr (fun value depth => max (codec.depth value) depth) 0
  read_write := by
    intro values document h
    obtain ⟨documents, hdocuments, rfl⟩ := Option.map_eq_some_iff.mp h
    clear h
    induction values generalizing documents with
    | nil =>
      cases hdocuments
      rfl
    | cons value rest ih =>
      obtain ⟨first, others, hfirst, hothers, rfl⟩ := mapM_cons_eq_some hdocuments
      have hrest : others.mapM codec.read = some (rest.map codec.reread) := ih others hothers
      simp [codec.read_write hfirst, hrest]
  depth_write := by
    intro values document h
    obtain ⟨documents, hdocuments, rfl⟩ := Option.map_eq_some_iff.mp h
    rw [JsonValue.depth]
    clear h
    congr 1
    induction values generalizing documents with
    | nil =>
      cases hdocuments
      simp [JsonValue.depthList]
    | cons value rest ih =>
      obtain ⟨first, others, hfirst, hothers, rfl⟩ := mapM_cons_eq_some hdocuments
      rw [JsonValue.depthList, codec.depth_write hfirst, ih others hothers, List.foldr_cons]
  write_ne_null := by
    intro value h
    obtain ⟨documents, -, h⟩ := Option.map_eq_some_iff.mp h
    cases h

/-- A field that has to be present. -/
def required (codec : Codec α) : Slot α where
  write value := (codec.write value).map some
  read slot := slot.bind codec.read
  reread := codec.reread
  depth := codec.depth
  read_write h := by
    obtain ⟨document, hdocument, rfl⟩ := Option.map_eq_some_iff.mp h
    exact codec.read_write hdocument
  depth_write h := by
    obtain ⟨document, hdocument, rfl⟩ := Option.map_eq_some_iff.mp h
    exact codec.depth_write hdocument

/-- A field that is written always and has a default when it is read. -/
def defaulted (codec : Codec α) (default : α) : Slot α :=
  { codec.required with
    read := fun
      | none => some default
      | some document => codec.read document
    read_write := by
      intro value slot h
      obtain ⟨document, hdocument, rfl⟩ := Option.map_eq_some_iff.mp h
      exact codec.read_write hdocument }

/-- A field that is absent when there is no value, and read as such when it is null. -/
def optional (codec : Codec α) : Slot (Option α) where
  write
    | none => some none
    | some value => (codec.write value).map some
  read
    | none => some none
    | some .null => some none
    | some document => (codec.read document).map some
  reread := Option.map codec.reread
  depth value := value.elim 0 codec.depth
  read_write := by
    intro value slot h
    cases value with
    | none =>
      cases h
      rfl
    | some value =>
      obtain ⟨document, hdocument, rfl⟩ := Option.map_eq_some_iff.mp h
      have hread := codec.read_write hdocument
      have hnull : document ≠ .null := fun hnull =>
        codec.write_ne_null value (hnull ▸ hdocument)
      split
      · contradiction
      · rename_i heq
        exact absurd (Option.some.inj heq) hnull
      · rename_i heq
        rw [← Option.some.inj heq, hread]
        rfl
  depth_write := by
    intro value slot h
    cases value with
    | none =>
      cases h
      rfl
    | some value =>
      obtain ⟨document, hdocument, rfl⟩ := Option.map_eq_some_iff.mp h
      exact codec.depth_write hdocument

/-- A list that is absent when it is empty. -/
def nonempty (codec : Codec α) : Slot (List α) where
  write values := if values.isEmpty then some none else (codec.list.write values).map some
  read
    | none => some []
    | some document => codec.list.read document
  reread := codec.list.reread
  depth values := if values.isEmpty then 0 else codec.list.depth values
  read_write := by
    intro values slot h
    split at h
    · rename_i hempty
      cases h
      rw [List.isEmpty_iff.mp hempty]
      simp [list]
    · obtain ⟨document, hdocument, rfl⟩ := Option.map_eq_some_iff.mp h
      exact codec.list.read_write hdocument
  depth_write := by
    intro values slot h
    by_cases hempty : values.isEmpty
    · rw [if_pos hempty] at h ⊢
      cases h
      rfl
    · rw [if_neg hempty] at h ⊢
      obtain ⟨document, hdocument, rfl⟩ := Option.map_eq_some_iff.mp h
      exact codec.list.depth_write hdocument

/-- The members of a map of texts, read from their documents. -/
def readTexts (members : List (String × JsonValue)) : Option (List (String × String)) :=
  members.mapM fun member => (string.read member.2).map fun text => (member.1, text)

private theorem readTexts_write (texts : List (String × String)) :
    readTexts (texts.map fun entry => (entry.1, .string entry.2)) = some texts := by
  induction texts with
  | nil => rfl
  | cons entry rest ih =>
    unfold readTexts at ih ⊢
    rw [List.map_cons, List.mapM_cons, ih]
    rfl

private theorem depthMembers_texts (texts : List (String × String)) :
    JsonValue.depthMembers (texts.map fun entry => (entry.1, .string entry.2)) = 0 := by
  induction texts with
  | nil => simp [JsonValue.depthMembers]
  | cons entry rest ih => simp [JsonValue.depthMembers, JsonValue.depth, ih]

/-- An ordered map of texts. -/
def texts : Codec (List (String × String)) where
  write texts := some (.object (texts.map fun entry => (entry.1, .string entry.2)))
  read
    | .object members => (readTexts members).map JsonValue.orderMembers
    | _ => none
  reread := JsonValue.orderMembers
  depth _ := 1
  read_write h := by
    cases h
    simp only [readTexts_write, Option.map_some]
  depth_write h := by
    cases h
    rw [JsonValue.depth, depthMembers_texts]
  write_ne_null _ := nofun

end Codec

/-- A dynamic document that may be absent. A null document is read as absent. -/
def Slot.dynamic (readDouble : ℕ → ℕ) : Slot (Option JsonValue) where
  write value := some value
  read
    | none => some none
    | some .null => some none
    | some document => some (some (document.toValue readDouble))
  reread
    | none => none
    | some .null => none
    | some document => some (document.toValue readDouble)
  depth value := value.elim 0 JsonValue.depth
  read_write := by
    intro value slot h
    cases h
    split <;> rfl
  depth_write h := by
    cases h
    rfl

/-! ### Depth of composed codecs -/

section Depth

variable {σ α β : Type} {n : ℕ}

@[simp] theorem Fields.object_depth_le {fields : Fields σ σ} {hnodup : fields.keys.Nodup}
    {value : σ} :
    (fields.object hnodup).depth value ≤ n + 1 ↔ fields.depth value ≤ n := by
  change 1 + fields.depth value ≤ n + 1 ↔ fields.depth value ≤ n
  omega

@[simp] theorem Fields.record_depth_le {fields : Fields σ σ} {hnodup : fields.keys.Nodup}
    {value : σ} :
    (fields.record hnodup).depth value ≤ n + 1 ↔ fields.depth value ≤ n := by
  change 1 + fields.depth value ≤ n + 1 ↔ fields.depth value ≤ n
  omega

@[simp] theorem Fields.start_depth_le {build : α} {value : σ} :
    (Fields.start build : Fields σ α).depth value ≤ n := Nat.zero_le n

@[simp] theorem Fields.field_depth_le {fields : Fields σ (β → α)} {key : String} {slot : Slot β}
    {get : σ → β} {value : σ} :
    (fields.field key slot get).depth value ≤ n ↔
      fields.depth value ≤ n ∧ slot.depth (get value) ≤ n := Nat.max_le

@[simp] theorem Fields.tagged_depth_le {fields : Fields σ (β → α)} {tag content : String}
    {union : Variants β} {get : σ → β} {value : σ} :
    (fields.tagged tag content union get).depth value ≤ n ↔
      fields.depth value ≤ n ∧ union.depth (get value) ≤ n := Nat.max_le

@[simp] theorem Codec.required_depth {codec : Codec α} {value : α} :
    codec.required.depth value = codec.depth value := rfl

@[simp] theorem Codec.defaulted_depth {codec : Codec α} {default value : α} :
    (codec.defaulted default).depth value = codec.depth value := rfl

@[simp] theorem Codec.optional_depth_le {codec : Codec α} {value : Option α} :
    codec.optional.depth value ≤ n ↔ ∀ present ∈ value, codec.depth present ≤ n := by
  cases value with
  | none => simp [Codec.optional]
  | some value => simp [Codec.optional]

@[simp] theorem Slot.dynamic_depth_le {readDouble : ℕ → ℕ} {value : Option JsonValue} :
    (Slot.dynamic readDouble).depth value ≤ n ↔ ∀ document ∈ value, document.depth ≤ n := by
  cases value with
  | none => simp [Slot.dynamic]
  | some value => simp [Slot.dynamic]

@[simp] theorem Codec.list_depth_le {codec : Codec α} {values : List α} :
    codec.list.depth values ≤ n + 1 ↔ ∀ value ∈ values, codec.depth value ≤ n := by
  have hfold : values.foldr (fun value depth => max (codec.depth value) depth) 0 ≤ n ↔
      ∀ value ∈ values, codec.depth value ≤ n := by
    induction values with
    | nil => simp
    | cons value rest ih => rw [List.foldr_cons, Nat.max_le, ih, List.forall_mem_cons]
  rw [← hfold]
  change 1 + _ ≤ n + 1 ↔ _
  omega

theorem Codec.nonempty_depth_le {codec : Codec α} {values : List α}
    (h : codec.list.depth values ≤ n) : codec.nonempty.depth values ≤ n := by
  change (if values.isEmpty then 0 else codec.list.depth values) ≤ n
  split
  · exact Nat.zero_le n
  · exact h

@[simp] theorem Codec.string_depth (value : String) : string.depth value = 0 := rfl

@[simp] theorem Codec.bool_depth (value : Bool) : bool.depth value = 0 := rfl

@[simp] theorem Codec.signed_depth (width : ℕ) (value : ℤ) : (signed width).depth value = 0 := rfl

@[simp] theorem Codec.unsigned_depth (width value : ℕ) : (unsigned width).depth value = 0 := rfl

@[simp] theorem Codec.texts_depth (value : List (String × String)) : texts.depth value = 1 := rfl

@[simp] theorem Codec.enumeration_depth {name : α → String} {values : List α}
    {hvalues : ∀ value, values.find? (fun other => name other = name value) = some value}
    (value : α) : (enumeration name values hvalues).depth value = 0 := rfl

end Depth

/-! ### Text -/

/-- The third-party code behind the text: the JSON writer and parser, and the printer and
parser of times. The writer has no depth limit; the parser reads a written document back
exactly when at most `limit` containers are open at a time. `readDouble` is the double that
a printed double is read as. A printed time is read back. -/
structure Serde where
  toVec : JsonValue → Option Bytes
  fromSlice : Bytes → Option JsonValue
  limit : ℕ
  readDouble : ℕ → ℕ
  formatTime : ℤ → Option String
  parseTime : String → Option ℤ
  fromSlice_toVec : ∀ {document body}, toVec document = some body →
    fromSlice body = if document.depth ≤ limit then some document else none
  parseTime_formatTime : ∀ {time text}, formatTime time = some text → parseTime text = some time

/-- Times as texts. -/
def Codec.time (serde : Serde) : Codec ℤ where
  write time := (serde.formatTime time).map .string
  read document := (string.read document).bind serde.parseTime
  reread := id
  depth _ := 0
  read_write h := by
    obtain ⟨text, htext, rfl⟩ := Option.map_eq_some_iff.mp h
    exact serde.parseTime_formatTime htext
  depth_write h := by
    obtain ⟨text, htext, rfl⟩ := Option.map_eq_some_iff.mp h
    simp [JsonValue.depth]
  write_ne_null time h := by
    obtain ⟨text, htext, h⟩ := Option.map_eq_some_iff.mp h
    cases h

@[simp] theorem Codec.time_depth (serde : Serde) (value : ℤ) : (time serde).depth value = 0 := rfl

/-- Write a value as text. -/
def Serde.encode (serde : Serde) (codec : Codec α) (value : α) : Option Bytes :=
  (codec.write value).bind serde.toVec

/-- Read a value from text. -/
def Serde.decode (serde : Serde) (codec : Codec α) (body : Bytes) : Option α :=
  (serde.fromSlice body).bind codec.read

/-- Text that was written is read back exactly when it is not nested too deep. -/
theorem Serde.decode_encode {serde : Serde} {codec : Codec α} {value : α} {body : Bytes}
    (h : serde.encode codec value = some body) :
    serde.decode codec body =
      if codec.depth value ≤ serde.limit then some (codec.reread value) else none := by
  obtain ⟨document, hdocument, hbody⟩ := Option.bind_eq_some_iff.mp h
  unfold decode
  rw [serde.fromSlice_toVec hbody, codec.depth_write hdocument]
  split
  · rw [Option.bind_some, codec.read_write hdocument]
  · rfl

namespace JsonValue

/-- An escaped character of a string. -/
def escapeChar (c : Char) : String :=
  if c = '"' then "\\\""
  else if c = '\\' then "\\\\"
  else if c.toNat = 0x08 then "\\b"
  else if c.toNat = 0x09 then "\\t"
  else if c.toNat = 0x0a then "\\n"
  else if c.toNat = 0x0c then "\\f"
  else if c.toNat = 0x0d then "\\r"
  else if c.toNat < 0x20 then "\\u" ++ hexPadded 4 c.toNat
  else c.toString

/-- A string as it stands in the text. -/
def renderString (text : String) : String :=
  "\"" ++ String.join (text.toList.map escapeChar) ++ "\""

mutual

/-- The compact text of a document; `formatDouble` prints its doubles. -/
def render (formatDouble : ℕ → String) : JsonValue → String
  | .null => "null"
  | .bool value => toString value
  | .number (.int value) => toString value
  | .number (.double bits) => formatDouble bits
  | .string value => renderString value
  | .array values => "[" ++ String.intercalate "," (renderList formatDouble values) ++ "]"
  | .object members =>
    "\x7b" ++ String.intercalate "," (renderMembers formatDouble members) ++ "\x7d"

/-- The texts of array elements. -/
def renderList (formatDouble : ℕ → String) : List JsonValue → List String
  | [] => []
  | value :: rest => value.render formatDouble :: renderList formatDouble rest

/-- The texts of object members. -/
def renderMembers (formatDouble : ℕ → String) : List (String × JsonValue) → List String
  | [] => []
  | (key, value) :: rest =>
    (renderString key ++ ":" ++ value.render formatDouble) :: renderMembers formatDouble rest

end

end JsonValue

/-- The text code as far as one document without doubles and the epoch are concerned. -/
def Serde.ofDocument (document : JsonValue) (limit : ℕ) : Serde where
  toVec written :=
    if written = document then some (toUtf8 (document.render fun _ => "")) else none
  fromSlice body :=
    if body = toUtf8 (document.render fun _ => "") ∧ document.depth ≤ limit then some document
    else none
  limit
  readDouble := id
  formatTime time := if time = 0 then some "1970-01-01T00:00:00Z" else none
  parseTime text := if text = "1970-01-01T00:00:00Z" then some 0 else none
  fromSlice_toVec := by
    intro written body hbody
    split at hbody
    · rename_i hwritten
      cases hbody
      simp [hwritten]
    · cases hbody
  parseTime_formatTime := by
    intro time text htext
    split at htext
    · rename_i htime
      cases htext
      simp [htime]
    · cases htext

/-- The text code as far as some documents without doubles and the epoch are concerned. -/
def Serde.ofDocuments (documents : List JsonValue) (limit : ℕ)
    (hdistinct : (documents.map fun document => toUtf8 (document.render fun _ => "")).Nodup) :
    Serde where
  toVec written :=
    if written ∈ documents then some (toUtf8 (written.render fun _ => "")) else none
  fromSlice body :=
    (documents.find? fun document => toUtf8 (document.render fun _ => "") = body).filter
      fun document => document.depth ≤ limit
  limit
  readDouble := id
  formatTime time := if time = 0 then some "1970-01-01T00:00:00Z" else none
  parseTime text := if text = "1970-01-01T00:00:00Z" then some 0 else none
  fromSlice_toVec := by
    intro written body hbody
    split at hbody
    · rename_i hwritten
      cases hbody
      have hfind : (documents.find? fun document => decide (toUtf8 (document.render fun _ => "") =
          toUtf8 (written.render fun _ => ""))) = some written := by
        cases hfound : documents.find? fun document => decide
            (toUtf8 (document.render fun _ => "") = toUtf8 (written.render fun _ => "")) with
        | none =>
          have hnone := List.find?_eq_none.mp hfound written hwritten
          simp at hnone
        | some document =>
          have htext := List.find?_some hfound
          rw [decide_eq_true_iff] at htext
          rw [List.inj_on_of_nodup_map hdistinct (List.mem_of_find?_eq_some hfound) hwritten htext]
      rw [hfind]
      by_cases hdepth : written.depth ≤ limit
      · simp [Option.filter, hdepth]
      · simp [Option.filter, hdepth]
    · cases hbody
  parseTime_formatTime := by
    intro time text htext
    split at htext
    · rename_i htime
      cases htext
      simp [htime]
    · cases htext

end MongoDam.Lib
