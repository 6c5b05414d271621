import Hawiya.Validators

/-!
# TD3 passport MRZ parser

`parseTd3` reads two lines of 44 characters. Dates that do not exist and checksums that fail do
not raise: they give `none` and `false`. The century of a date of birth depends on the current
date, which is an argument here.
-/

namespace Hawiya.Mrz
open PyString Calendar Validators

def td3LineLength : ℕ := 44
def dobFutureSlack : ℕ := 1
def expiryCenturyCutoff : ℕ := 50

/-- `s[i]`. -/
def charAt (s : Str) (i : ℕ) : Except PyError Char :=
  match s[i]? with
  | some c => .ok c
  | none => .error .indexError

/-- `int(s)`. -/
def int (s : Str) : Except PyError ℕ :=
  match int? s with
  | some n => .ok n
  | none => .error (.valueError ("invalid literal for int() with base 10: " ++
      String.ofList (strRepr (fun _ => true) s)))

def parseName (field : Str) : Str × Str :=
  let parts := splitOnce ['<', '<'] field
  let surname := strip (replaceChar '<' ' ' parts.1)
  let given := match parts.2 with
    | some rest => strip (replaceChar '<' ' ' rest)
    | none => []
  (surname, given)

def parseSex (ch : Char) : Option Sex :=
  if ch = 'M' then some .male
  else if ch = 'F' then some .female
  else if ch = 'X' ∨ ch = '<' then some .unspecified
  else none

/-- YYMMDD, century inferred relative to today. -/
def parseDob (today : Date) (raw : Str) : Except PyError (Option Date) :=
  if !isdigit raw then .ok none
  else do
    let yy ← int (slice 0 2 raw)
    let mm ← int (slice 2 4 raw)
    let dd ← int (slice 4 6 raw)
    let currentYy := today.year % 100
    let century := if yy > currentYy + dobFutureSlack then 1900 else 2000
    .ok (Date.ofYmd? (century + yy) mm dd)

def parseExpiry (raw : Str) : Except PyError (Option Date) :=
  if !isdigit raw then .ok none
  else do
    let yy ← int (slice 0 2 raw)
    let mm ← int (slice 2 4 raw)
    let dd ← int (slice 4 6 raw)
    let century := if yy < expiryCenturyCutoff then 2000 else 1900
    .ok (Date.ofYmd? (century + yy) mm dd)

/-- The composite check digit must itself be a digit; `-1` forces a mismatch. -/
def parseCheckForComposite (ch : Char) : ℤ :=
  if '0' ≤ ch ∧ ch ≤ '9' then ch.toNat - '0'.toNat else -1

def parseTd3 (today : Date) (line1 line2 : Str) : Except PyError ParsedMRZ := do
  if line1.length ≠ td3LineLength then
    throw (.mrzFormatError ("line 1 must be " ++ toString td3LineLength ++ " chars, got " ++
      toString line1.length))
  if line2.length ≠ td3LineLength then
    throw (.mrzFormatError ("line 2 must be " ++ toString td3LineLength ++ " chars, got " ++
      toString line2.length))
  let full := line1 ++ line2
  -- Line 1
  let document_type := rstripChar '<' (slice 0 2 line1)
  let issuing_country := slice 2 5 line1
  let names := parseName (slice 5 44 line1)
  -- Line 2
  let document_number_raw := td3DocNumber full
  let document_number := rstripChar '<' document_number_raw
  let doc_number_check_char ← charAt full td3DocNumberCheck
  let nationality := slice 10 13 line2
  let dob_raw := td3Dob full
  let dob_check_char ← charAt full td3DobCheck
  let date_of_birth ← parseDob today dob_raw
  let sex_char ← charAt line2 20
  let sex := parseSex sex_char
  let expiry_raw := td3Expiry full
  let expiry_check_char ← charAt full td3ExpiryCheck
  let date_of_expiry ← parseExpiry expiry_raw
  let personal_raw := td3Personal full
  let personal_number := rstripChar '<' personal_raw
  let personal_check_char ← charAt full td3PersonalCheck
  let composite_check_char ← charAt full td3CompositeCheck
  -- Checksums
  let doc_number_ok ← verify document_number_raw doc_number_check_char
  let dob_ok ← verify dob_raw dob_check_char
  let expiry_ok ← verify expiry_raw expiry_check_char
  let personal_ok ← verify personal_raw personal_check_char
  let composite_field := document_number_raw ++ [doc_number_check_char] ++ dob_raw ++
    [dob_check_char] ++ expiry_raw ++ [expiry_check_char] ++ personal_raw ++ [personal_check_char]
  let composite ← computeCheckDigit composite_field
  let composite_ok := (composite : ℤ) == parseCheckForComposite composite_check_char
  return {
    document_type, issuing_country
    surname := names.1
    given_names := names.2
    document_number, nationality, date_of_birth, sex, date_of_expiry, personal_number
    checksums := {
      doc_number := doc_number_ok, dob := dob_ok, expiry := expiry_ok, personal := personal_ok
      composite := composite_ok }
    raw_line_1 := line1
    raw_line_2 := line2 }

end Hawiya.Mrz
