import Mathlib.Data.List.Basic
import Mathlib.Data.UInt

/-!
# Text

`str::from_utf8`, `str::to_lowercase`, `[String]::join` and `str::strip_suffix`. The case of
a character is Unicode data, of which only the part for ASCII is fixed here. On ASCII text
the four act on single bytes, and `toLowercase_dotted` is the form in which names need this.
-/

namespace ConnectAlso.Misc

/-! ## ASCII -/

/-- `u8::is_ascii`, for each byte. -/
def IsAscii (bytes : List UInt8) : Prop := ∀ b ∈ bytes, b < 128

instance (bytes : List UInt8) : Decidable (IsAscii bytes) :=
  List.decidableBAll (fun b => b < 128) bytes

/-- `u8::to_ascii_lowercase`. -/
def lowerByte (b : UInt8) : UInt8 := if 65 ≤ b ∧ b ≤ 90 then b + 32 else b

/-- The text that ASCII bytes encode. -/
def asciiText (bytes : List UInt8) : String := String.ofList (bytes.map Char.ofUInt8)

private theorem lowerByte_lt_iff_ofNat : ∀ n < 256,
    lowerByte (UInt8.ofNat n) < 128 ↔ UInt8.ofNat n < 128 := by
  decide +kernel

private theorem toLower_ofNat : ∀ n < 128,
    (Char.ofUInt8 (UInt8.ofNat n)).toLower = Char.ofUInt8 (lowerByte (UInt8.ofNat n)) := by
  decide +kernel

theorem lowerByte_lt_iff (b : UInt8) : lowerByte b < 128 ↔ b < 128 := by
  have hlower := lowerByte_lt_iff_ofNat b.toNat b.toNat_lt
  rwa [UInt8.ofNat_toNat] at hlower

theorem toLower_ofUInt8 {b : UInt8} (h : b < 128) :
    (Char.ofUInt8 b).toLower = Char.ofUInt8 (lowerByte b) := by
  have hlower := toLower_ofNat b.toNat (UInt8.lt_iff_toNat_lt.mp h)
  rwa [UInt8.ofNat_toNat] at hlower

theorem toNat_ofUInt8_lt {b : UInt8} (h : b < 128) : (Char.ofUInt8 b).toNat < 128 :=
  UInt8.lt_iff_toNat_lt.mp h

/-! ## UTF-8 -/

/-- `str::from_utf8`. -/
def fromUtf8 (bytes : List UInt8) : Option String := String.fromUTF8? bytes.toByteArray

theorem utf8EncodeChar_ofUInt8 {b : UInt8} (h : b < 128) :
    String.utf8EncodeChar (Char.ofUInt8 b) = [b] := by
  have hsize : (Char.ofUInt8 b).utf8Size = 1 := by
    rw [Char.utf8Size_eq_one_iff, UInt32.le_iff_toNat_le]
    exact Nat.le_of_lt_succ (toNat_ofUInt8_lt h)
  have hbyte : (Char.ofUInt8 b).val.toUInt8 = b := UInt8.toUInt8_toUInt32 b
  rw [String.utf8EncodeChar_eq_singleton hsize, hbyte]

theorem utf8Encode_map_ofUInt8 {bytes : List UInt8} (h : IsAscii bytes) :
    (bytes.map Char.ofUInt8).utf8Encode = bytes.toByteArray := by
  have hbytes : (bytes.map Char.ofUInt8).flatMap String.utf8EncodeChar = bytes := by
    induction bytes with
    | nil => rfl
    | cons b bytes ih =>
        obtain ⟨hb, hbytes⟩ := List.forall_mem_cons.mp h
        rw [List.map_cons, List.flatMap_cons, utf8EncodeChar_ofUInt8 hb, ih hbytes]
        rfl
  rw [List.utf8Encode, hbytes]

/-- ASCII bytes are UTF-8. -/
theorem fromUtf8_of_isAscii {bytes : List UInt8} (h : IsAscii bytes) :
    fromUtf8 bytes = some (asciiText bytes) := by
  rw [fromUtf8, ← utf8Encode_map_ofUInt8 h, String.fromUTF8?,
    dif_pos ByteArray.isValidUTF8_utf8Encode]
  rfl

/-! ## Lower case -/

/-- The Unicode data that lower case depends on: the mapping of each character, and the
    properties `Cased` and `Case_Ignorable`. -/
structure CaseData where
  lower : Char → List Char
  cased : Char → Bool
  caseIgnorable : Char → Bool
  lower_ascii : ∀ c, c.toNat < 128 → lower c = [c.toLower]

namespace CaseData

variable (data : CaseData)

/-- Greek capital sigma, the only character whose lower case depends on its place. -/
def capitalSigma : Char := Char.ofNat 0x3A3

/-- `case_ignorable_then_cased`. -/
def ignorableThenCased (chars : List Char) : Bool :=
  match chars.dropWhile data.caseIgnorable with
  | c :: _ => data.cased c
  | [] => false

/-- `map_uppercase_sigma`: `before` is what precedes it, the last character first. -/
def lowerSigma (before rest : List Char) : Char :=
  if data.ignorableThenCased before && !data.ignorableThenCased rest then Char.ofNat 0x3C2
  else Char.ofNat 0x3C3

/-- The loop of `str::to_lowercase`. -/
def lowerFrom : List Char → List Char → List Char
  | _, [] => []
  | before, c :: rest =>
    (if c = capitalSigma then [data.lowerSigma before rest] else data.lower c) ++
      lowerFrom (c :: before) rest

/-- `str::to_lowercase`. -/
def toLowercase (s : String) : String := String.ofList (data.lowerFrom [] s.toList)

theorem lowerFrom_ofUInt8 {bytes : List UInt8} (h : IsAscii bytes) (before : List Char) :
    data.lowerFrom before (bytes.map Char.ofUInt8) =
      (bytes.map lowerByte).map Char.ofUInt8 := by
  induction bytes generalizing before with
  | nil => rfl
  | cons b bytes ih =>
      obtain ⟨hb, hbytes⟩ := List.forall_mem_cons.mp h
      have hascii := toNat_ofUInt8_lt hb
      have hsigma : Char.ofUInt8 b ≠ capitalSigma := by
        intro heq
        rw [heq] at hascii
        exact absurd hascii (by decide)
      rw [List.map_cons, lowerFrom, if_neg hsigma, data.lower_ascii _ hascii,
        toLower_ofUInt8 hb, ih hbytes]
      rfl

theorem toLowercase_asciiText {bytes : List UInt8} (h : IsAscii bytes) :
    data.toLowercase (asciiText bytes) = asciiText (bytes.map lowerByte) := by
  rw [toLowercase, asciiText, String.toList_ofList, lowerFrom_ofUInt8 data h, asciiText]

end CaseData

/-! ## Dotted names -/

/-- The byte of `.`. -/
def dot : UInt8 := 46

/-- Labels joined by dots. -/
def dotted (labels : List (List UInt8)) : String := ".".intercalate (labels.map asciiText)

theorem map_intercalate {α β : Type} (f : α → β) (sep : List α) (parts : List (List α)) :
    (sep.intercalate parts).map f = (sep.map f).intercalate (parts.map (List.map f)) := by
  induction parts with
  | nil => rfl
  | cons part parts ih =>
      cases parts with
      | nil => rw [List.intercalate_singleton, List.map_singleton, List.intercalate_singleton]
      | cons next parts =>
          simp only [List.map_cons, List.intercalate_cons_cons, List.map_append] at ih ⊢
          rw [ih]

theorem dotted_eq (labels : List (List UInt8)) :
    dotted labels = asciiText ([dot].intercalate labels) := by
  have htexts : (labels.map asciiText).map String.toList =
      labels.map (List.map Char.ofUInt8) := by
    rw [List.map_map]
    exact List.map_congr_left fun label _ => String.toList_ofList
  have hbytes : (asciiText ([dot].intercalate labels)).toList =
      ['.'].intercalate (labels.map (List.map Char.ofUInt8)) :=
    String.toList_ofList.trans (map_intercalate Char.ofUInt8 [dot] labels)
  rw [← String.toList_inj, hbytes, dotted, String.toList_intercalate, htexts]
  rfl

theorem isAscii_intercalate {labels : List (List UInt8)} (h : ∀ label ∈ labels, IsAscii label) :
    IsAscii ([dot].intercalate labels) := by
  induction labels with
  | nil => exact List.forall_mem_nil _
  | cons label labels ih =>
      obtain ⟨hlabel, hlabels⟩ := List.forall_mem_cons.mp h
      cases labels with
      | nil => rwa [List.intercalate_singleton]
      | cons next labels =>
          rw [List.intercalate_cons_cons]
          have hdot : IsAscii [dot] := by decide
          exact List.forall_mem_append.mpr
            ⟨List.forall_mem_append.mpr ⟨hlabel, hdot⟩, ih hlabels⟩

/-- Lower case of a name is lower case of its labels. -/
theorem CaseData.toLowercase_dotted (data : CaseData) {labels : List (List UInt8)}
    (h : ∀ label ∈ labels, IsAscii label) :
    data.toLowercase (dotted labels) = dotted (labels.map (List.map lowerByte)) := by
  rw [dotted_eq, data.toLowercase_asciiText (isAscii_intercalate h), map_intercalate, dotted_eq]
  rfl

theorem dotted_append {labels suffix : List (List UInt8)} (hlabels : labels ≠ [])
    (hsuffix : suffix ≠ []) :
    dotted (labels ++ suffix) = dotted labels ++ "." ++ dotted suffix := by
  rw [dotted, List.map_append, String.intercalate_append_of_ne_nil (by simpa using hlabels)
    (by simpa using hsuffix)]
  rfl

/-! ## Suffixes -/

/-- `str::strip_suffix`. -/
def stripSuffix (s suffix : String) : Option String :=
  if suffix.toList <:+ s.toList then
    some (String.ofList (s.toList.take (s.toList.length - suffix.toList.length)))
  else none

theorem stripSuffix_of_not_isSuffix {s suffix : String} (h : ¬ suffix.toList <:+ s.toList) :
    stripSuffix s suffix = none := if_neg h

theorem stripSuffix_append (s suffix : String) : stripSuffix (s ++ suffix) suffix = some s := by
  have hsuffix : suffix.toList <:+ (s ++ suffix).toList := by
    rw [String.toList_append]
    exact List.suffix_append _ _
  rw [stripSuffix, if_pos hsuffix, String.toList_append, List.length_append, Nat.add_sub_cancel,
    List.take_left, String.ofList_toList]

end ConnectAlso.Misc
