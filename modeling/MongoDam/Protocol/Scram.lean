import MongoDam.Lib.Utf8
import MongoDam.Protocol.Summary

/-!
# SCRAM client-first messages

A client sends its user name with the equals signs and commas escaped. The two
replacements that undo this go over the whole name one after the other. The first one
leaves only escaped equals signs, since every equals sign of the escaped name begins an
escape, and the second one makes the name of these.
-/

namespace MongoDam.Protocol

open Lib

/-! ### Messages -/

/-- A character of a user name as it is sent. -/
def escapeNameChar (c : Char) : List Char :=
  if c = '=' then ['=', '3', 'D'] else if c = ',' then ['=', '2', 'C'] else [c]

def escapeName (name : String) : String := String.ofList (name.toList.flatMap escapeNameChar)

/-- Whether the client supports channel binding, does not use it, or which one it uses. -/
inductive ChannelBinding where
  | unsupported
  | unused
  | used (name : String) (plain : ',' ∉ name.toList)

def ChannelBinding.text : ChannelBinding → String
  | unsupported => "n"
  | unused => "y"
  | used name _ => "p=" ++ name

/-- The header of a client-first message. -/
structure Gs2Header where
  binding : ChannelBinding
  saslname : Option String
  saslname_plain : ∀ value ∈ saslname, ',' ∉ value.toList

/-- The field with the identity to act as, empty when there is none. -/
def Gs2Header.authzid (header : Gs2Header) : String :=
  match header.saslname with
  | none => ""
  | some value => "a=" ++ value

def Gs2Header.text (header : Gs2Header) : String :=
  header.binding.text ++ "," ++ header.authzid ++ ","

def clientFirstMessage (header : Gs2Header) (name nonce : String) : String :=
  header.text ++ "n=" ++ escapeName name ++ ",r=" ++ nonce

/-! ### Undoing the escapes -/

/-- A character of a user name once its commas are restored. -/
def escapeEqualsChar (c : Char) : List Char := if c = '=' then ['=', '3', 'D'] else [c]

theorem replaceEscape_cons_of_ne {a b replacement c : Char} (h : c ≠ '=') (rest : List Char) :
    replaceEscape a b replacement (c :: rest) = c :: replaceEscape a b replacement rest := by
  rw [replaceEscape]
  intro x y tail heq
  exact absurd heq h

/-- The escape is replaced. -/
theorem replaceEscape_cons_escape {a b replacement : Char} (rest : List Char) :
    replaceEscape a b replacement ('=' :: a :: b :: rest) =
      replacement :: replaceEscape a b replacement rest := by
  rw [replaceEscape, if_pos ⟨rfl, rfl⟩]

/-- Another escape is left as it is. -/
theorem replaceEscape_cons_other {a b replacement x y : Char} (hother : ¬(x = a ∧ y = b))
    (hx : x ≠ '=') (hy : y ≠ '=') (rest : List Char) :
    replaceEscape a b replacement ('=' :: x :: y :: rest) =
      '=' :: x :: y :: replaceEscape a b replacement rest := by
  rw [replaceEscape, if_neg hother, replaceEscape_cons_of_ne hx, replaceEscape_cons_of_ne hy]

/-- The first replacement restores the commas. -/
theorem replaceEscape_commas (name : List Char) :
    replaceEscape '2' 'C' ',' (name.flatMap escapeNameChar) = name.flatMap escapeEqualsChar := by
  induction name with
  | nil => rfl
  | cons c rest ih =>
    simp only [List.flatMap_cons, escapeNameChar, escapeEqualsChar]
    by_cases hequals : c = '='
    · simp only [if_pos hequals, List.cons_append, List.nil_append]
      rw [replaceEscape_cons_other (by decide) (by decide) (by decide), ih]
    · by_cases hcomma : c = ','
      · simp only [if_neg hequals, if_pos hcomma, List.cons_append, List.nil_append]
        rw [replaceEscape_cons_escape, ih, hcomma]
      · simp only [if_neg hequals, if_neg hcomma, List.cons_append, List.nil_append]
        rw [replaceEscape_cons_of_ne hequals, ih]

/-- The second replacement restores the equals signs. -/
theorem replaceEscape_equals (name : List Char) :
    replaceEscape '3' 'D' '=' (name.flatMap escapeEqualsChar) = name := by
  induction name with
  | nil => rfl
  | cons c rest ih =>
    simp only [List.flatMap_cons, escapeEqualsChar]
    by_cases hequals : c = '='
    · simp only [if_pos hequals, List.cons_append, List.nil_append]
      rw [replaceEscape_cons_escape, ih, hequals]
    · simp only [if_neg hequals, List.cons_append, List.nil_append]
      rw [replaceEscape_cons_of_ne hequals, ih]

/-! ### The fields of a message -/

theorem comma_notMem_escapeName (name : String) : ',' ∉ (escapeName name).toList := by
  rw [escapeName, String.toList_ofList, List.mem_flatMap]
  rintro ⟨c, -, hc⟩
  unfold escapeNameChar at hc
  split at hc
  · exact absurd hc (by decide)
  · split at hc
    · exact absurd hc (by decide)
    · next hcomma => exact hcomma (List.mem_singleton.mp hc).symm

theorem ChannelBinding.text_plain (binding : ChannelBinding) :
    ',' ∉ binding.text.toList ∧ scramNameField binding.text.toList = none := by
  cases binding with
  | unsupported => exact ⟨by decide, rfl⟩
  | unused => exact ⟨by decide, rfl⟩
  | used name plain =>
    have htext : (ChannelBinding.used name plain).text.toList = 'p' :: '=' :: name.toList := by
      rw [text, String.toList_append]
      rfl
    rw [htext]
    refine ⟨fun hmem => ?_, rfl⟩
    rcases List.mem_cons.mp hmem with heq | hmem
    · exact absurd heq (by decide)
    · rcases List.mem_cons.mp hmem with heq | hmem
      · exact absurd heq (by decide)
      · exact plain hmem

theorem Gs2Header.authzid_plain (header : Gs2Header) :
    ',' ∉ header.authzid.toList ∧ scramNameField header.authzid.toList = none := by
  have hplain := header.saslname_plain
  unfold authzid
  cases hname : header.saslname with
  | none => exact ⟨by decide, rfl⟩
  | some value =>
    have htext : ("a=" ++ value).toList = 'a' :: '=' :: value.toList := by
      rw [String.toList_append]
      rfl
    dsimp only
    rw [htext]
    refine ⟨fun hmem => ?_, rfl⟩
    rcases List.mem_cons.mp hmem with heq | hmem
    · exact absurd heq (by decide)
    · rcases List.mem_cons.mp hmem with heq | hmem
      · exact absurd heq (by decide)
      · exact hplain value hname hmem

/-- The first field with a name is the one behind the header. -/
theorem scramNameField_clientFirstMessage {header : Gs2Header} {name nonce : String}
    (hname : escapeName name ≠ "") :
    ((clientFirstMessage header name nonce).toList.splitOn ',').findSome? scramNameField =
      some (escapeName name).toList := by
  have hcomma : ",".toList = [','] := rfl
  have hlead : "n=".toList = ['n', '='] := rfl
  have hnonce : ",r=".toList = [',', 'r', '='] := rfl
  have htext : (clientFirstMessage header name nonce).toList =
      header.binding.text.toList ++ ',' :: (header.authzid.toList ++ ',' ::
        (('n' :: '=' :: (escapeName name).toList) ++ ',' :: ('r' :: '=' :: nonce.toList))) := by
    unfold clientFirstMessage Gs2Header.text
    simp only [String.toList_append, hcomma, hlead, hnonce, List.append_assoc, List.cons_append,
      List.nil_append]
  obtain ⟨hbindingComma, hbinding⟩ := header.binding.text_plain
  obtain ⟨hauthzidComma, hauthzid⟩ := header.authzid_plain
  have hnameComma : ',' ∉ 'n' :: '=' :: (escapeName name).toList := by
    intro hmem
    simp only [List.mem_cons] at hmem
    rcases hmem with heq | heq | hmem
    · exact absurd heq (by decide)
    · exact absurd heq (by decide)
    · exact comma_notMem_escapeName name hmem
  have hfield : scramNameField ('n' :: '=' :: (escapeName name).toList) =
      some (escapeName name).toList := by
    rw [scramNameField, if_neg]
    exact fun hnil => hname (String.toList_inj.mp (by rw [hnil]; rfl))
  rw [htext, List.splitOn_append_cons_self_of_not_mem hbindingComma,
    List.splitOn_append_cons_self_of_not_mem hauthzidComma,
    List.splitOn_append_cons_self_of_not_mem hnameComma, List.findSome?_cons, hbinding,
    List.findSome?_cons, hauthzid, List.findSome?_cons, hfield]

/-! ### Lengths -/

theorem utf8Length_toList (text : String) : utf8Length text.toList = (toUtf8 text).length := by
  rw [length_toUtf8]
  rfl

theorem utf8Length_escapeName_le (name : String) :
    utf8Length (escapeName name).toList ≤ 3 * utf8Length name.toList := by
  rw [escapeName, String.toList_ofList]
  induction name.toList with
  | nil => exact Nat.le_refl 0
  | cons c rest ih =>
    have hchar : ((escapeNameChar c).map Char.utf8Size).sum ≤ 3 * c.utf8Size := by
      have hsize := c.utf8Size_pos
      unfold escapeNameChar
      split
      · exact Nat.le_trans (by decide) (Nat.mul_le_mul_left 3 hsize)
      · split
        · exact Nat.le_trans (by decide) (Nat.mul_le_mul_left 3 hsize)
        · simp only [List.map_cons, List.map_nil, List.sum_cons, List.sum_nil]
          omega
    unfold utf8Length at ih ⊢
    rw [List.flatMap_cons, List.map_append, List.sum_append, List.map_cons, List.sum_cons]
    omega

theorem escapeName_ne_empty {name : String} (h : name ≠ "") : escapeName name ≠ "" := by
  intro hempty
  have hescaped := replaceEscape_commas name.toList
  have hnil : name.toList.flatMap escapeNameChar = [] :=
    String.toList_ofList.symm.trans (congrArg String.toList hempty)
  have hread := replaceEscape_equals name.toList
  rw [← hescaped, hnil] at hread
  exact h (String.toList_inj.mp hread.symm)

/-- A user name of at most 256 bytes without control characters is read from every client-first
message with it. -/
theorem parseScramPrincipal_clientFirstMessage (header : Gs2Header) (nonce : String)
    {name : String} (hname : name ≠ "") (hlength : (toUtf8 name).length ≤ 256)
    (hcontrol : ∀ c ∈ name.toList, isControl c = false) :
    parseScramPrincipal (toUtf8 (clientFirstMessage header name nonce)) = some name := by
  have hbound : utf8Length name.toList ≤ 256 := by rwa [utf8Length_toList]
  have hescaped := utf8Length_escapeName_le name
  have hdecoded : replaceEscape '3' 'D' '=' (replaceEscape '2' 'C' ',' (escapeName name).toList) =
      name.toList := by
    rw [escapeName, String.toList_ofList, replaceEscape_commas, replaceEscape_equals]
  have hnil : name.toList ≠ [] := fun heq => hname (String.toList_inj.mp (by rw [heq]; rfl))
  have hany : name.toList.any isControl = false := List.any_eq_false.mpr fun c hc => by
    rw [hcontrol c hc]
    exact Bool.false_ne_true
  unfold parseScramPrincipal
  rw [fromUtf8_toUtf8]
  dsimp only
  rw [scramNameField_clientFirstMessage (escapeName_ne_empty hname)]
  dsimp only
  rw [if_neg (by omega), hdecoded, if_pos ⟨hnil, hbound, hany⟩, String.ofList_toList]

/-- A name made of what looks like escapes is read back. -/
theorem parseScramPrincipal_fragments :
    parseScramPrincipal (toUtf8 (clientFirstMessage
      ⟨.used "tls-unique" (by decide), some "admin", by simp⟩ "=2C,=3D=" "nonce")) =
        some "=2C,=3D=" := by
  have hcontrol : "=2C,=3D=".toList.all fun c => isControl c = false := by decide +kernel
  exact parseScramPrincipal_clientFirstMessage _ _ (by decide) (by decide +kernel) fun c hc =>
    of_decide_eq_true (List.all_eq_true.mp hcontrol c hc)

end MongoDam.Protocol
