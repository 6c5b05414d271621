import Hawiya.Mrz

/-!
# Column layout of the two MRZ lines

`Blocks` holds the fields and check characters of a TD3 MRZ at their widths. On the lines it
concatenates to, the parser is `parseBlocks`, which slices nothing.
-/

namespace Hawiya.Mrz
open PyString Calendar Validators

structure Blocks where
  document_type : Str
  issuing_country : Str
  name : Str
  doc_number : Str
  doc_number_check : Char
  nationality : Str
  dob : Str
  dob_check : Char
  sex : Char
  expiry : Str
  expiry_check : Char
  personal : Str
  personal_check : Char
  composite_check : Char
  length_document_type : document_type.length = 2
  length_issuing_country : issuing_country.length = 3
  length_name : name.length = 39
  length_doc_number : doc_number.length = 9
  length_nationality : nationality.length = 3
  length_dob : dob.length = 6
  length_expiry : expiry.length = 6
  length_personal : personal.length = 14

namespace Blocks

attribute [simp] length_document_type length_issuing_country length_name length_doc_number
  length_nationality length_dob length_expiry length_personal

@[grind =] def line1 (b : Blocks) : Str := b.document_type ++ b.issuing_country ++ b.name

@[grind =] def line2 (b : Blocks) : Str :=
  b.doc_number ++ [b.doc_number_check] ++ b.nationality ++ b.dob ++ [b.dob_check] ++ [b.sex] ++
    b.expiry ++ [b.expiry_check] ++ b.personal ++ [b.personal_check] ++ [b.composite_check]

/-- The 39 characters under the composite check digit. -/
def composite (b : Blocks) : Str :=
  b.doc_number ++ [b.doc_number_check] ++ b.dob ++ [b.dob_check] ++ b.expiry ++
    [b.expiry_check] ++ b.personal ++ [b.personal_check]

@[simp] theorem length_line1 (b : Blocks) : b.line1.length = 44 := by simp [line1]

@[simp] theorem length_line2 (b : Blocks) : b.line2.length = 44 := by simp [line2]

end Blocks

/-- `parseTd3` on lines already cut into blocks. -/
def parseBlocks (today : Date) (b : Blocks) : Except PyError ParsedMRZ := do
  let date_of_birth ← parseDob today b.dob
  let date_of_expiry ← parseExpiry b.expiry
  let doc_number_ok ← verify b.doc_number b.doc_number_check
  let dob_ok ← verify b.dob b.dob_check
  let expiry_ok ← verify b.expiry b.expiry_check
  let personal_ok ← verify b.personal b.personal_check
  let composite ← computeCheckDigit b.composite
  return {
    document_type := rstripChar '<' b.document_type
    issuing_country := b.issuing_country
    surname := (parseName b.name).1
    given_names := (parseName b.name).2
    document_number := rstripChar '<' b.doc_number
    nationality := b.nationality
    date_of_birth
    sex := parseSex b.sex
    date_of_expiry
    personal_number := rstripChar '<' b.personal
    checksums := {
      doc_number := doc_number_ok, dob := dob_ok, expiry := expiry_ok, personal := personal_ok
      composite := (composite : ℤ) == parseCheckForComposite b.composite_check }
    raw_line_1 := b.line1
    raw_line_2 := b.line2 }

section Slices
variable (b : Blocks)

theorem slice_document_type : slice 0 2 b.line1 = b.document_type := by
  simp [slice, Blocks.line1]

theorem slice_issuing_country : slice 2 5 b.line1 = b.issuing_country := by
  simp [slice, Blocks.line1, List.take_append, List.take_of_length_le]

theorem slice_name : slice 5 44 b.line1 = b.name := by
  simp [slice, Blocks.line1, List.drop_append, List.take_of_length_le, List.drop_of_length_le]

theorem slice_nationality : slice 10 13 b.line2 = b.nationality := by
  simp [slice, Blocks.line2, List.take_append, List.drop_append, List.take_of_length_le,
    List.drop_of_length_le]

theorem td3DocNumber_lines : td3DocNumber (b.line1 ++ b.line2) = b.doc_number := by
  simp [td3DocNumber, slice, Blocks.line2, List.take_append, List.take_of_length_le]

theorem td3Dob_lines : td3Dob (b.line1 ++ b.line2) = b.dob := by
  simp [td3Dob, slice, Blocks.line2, List.take_append, List.drop_append,
    List.take_of_length_le, List.drop_of_length_le]

theorem td3Expiry_lines : td3Expiry (b.line1 ++ b.line2) = b.expiry := by
  simp [td3Expiry, slice, Blocks.line2, List.take_append, List.drop_append,
    List.take_of_length_le, List.drop_of_length_le]

theorem td3Personal_lines : td3Personal (b.line1 ++ b.line2) = b.personal := by
  simp [td3Personal, slice, Blocks.line2, List.take_append, List.drop_append,
    List.take_of_length_le, List.drop_of_length_le]

theorem charAt_docNumberCheck :
    charAt (b.line1 ++ b.line2) td3DocNumberCheck = .ok b.doc_number_check := by
  simp [charAt, td3DocNumberCheck, Blocks.line2]

theorem charAt_dobCheck : charAt (b.line1 ++ b.line2) td3DobCheck = .ok b.dob_check := by
  simp [charAt, td3DobCheck, Blocks.line2]

theorem charAt_sex : charAt b.line2 20 = .ok b.sex := by
  simp [charAt, Blocks.line2]

theorem charAt_expiryCheck :
    charAt (b.line1 ++ b.line2) td3ExpiryCheck = .ok b.expiry_check := by
  simp [charAt, td3ExpiryCheck, Blocks.line2]

theorem charAt_personalCheck :
    charAt (b.line1 ++ b.line2) td3PersonalCheck = .ok b.personal_check := by
  simp [charAt, td3PersonalCheck, Blocks.line2]

theorem charAt_compositeCheck :
    charAt (b.line1 ++ b.line2) td3CompositeCheck = .ok b.composite_check := by
  simp [charAt, td3CompositeCheck, Blocks.line2]

end Slices

/-- The parser's slices are the blocks. -/
theorem parseTd3_lines (today : Date) (b : Blocks) :
    parseTd3 today b.line1 b.line2 = parseBlocks today b := by
  unfold parseTd3
  rw [if_neg (by simp [td3LineLength]), if_neg (by simp [td3LineLength])]
  simp only [slice_document_type, slice_issuing_country, slice_name, slice_nationality,
    td3DocNumber_lines, td3Dob_lines, td3Expiry_lines, td3Personal_lines, charAt_docNumberCheck,
    charAt_dobCheck, charAt_sex, charAt_expiryCheck, charAt_personalCheck, charAt_compositeCheck,
    except_ok_bind]
  rfl

end Hawiya.Mrz
