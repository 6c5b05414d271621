import Hawiya.Validators

/-!
# Synthetic TD3 encoder

The MRZ builder of the passport image generator: every check digit is computed by the production
routines. Names are Latin, so upper-casing is the ASCII one.
-/

namespace Hawiya.MrzEncode
open PyString Validators

def nameLength : ℕ := 39

def pad (value : Str) (length : ℕ) : Except PyError Str :=
  if value.length > length then
    .error (.valueError ("value '" ++ String.ofList value ++ "' too long for field of " ++
      toString length))
  else .ok (value ++ List.replicate (length - value.length) '<')

def upper (s : Str) : Str := s.map Char.toUpper

def nameField (surname given : Str) : Except PyError Str :=
  let body := replaceChar ' ' '<' (upper surname) ++ ['<', '<'] ++
    replaceChar ' ' '<' (upper given)
  pad body nameLength

/-- The keyword arguments of `build_td3_mrz`. -/
structure MrzSpec where
  issuing : Str
  nationality : Str
  surname : Str
  given : Str
  passport_number : Str
  dob : Str
  sex : Str
  expiry : Str
  personal : Str

def buildTd3Mrz (m : MrzSpec) : Except PyError (Str × Str) := do
  let name ← nameField m.surname m.given
  let line1 := ['P', '<'] ++ m.issuing ++ name
  if line1.length ≠ 44 then
    throw (.assertionError ("line1 length " ++ toString line1.length))
  let doc_field ← pad m.passport_number 9
  let doc_check := natStr (← computeCheckDigit doc_field)
  let dob_check := natStr (← computeCheckDigit m.dob)
  let expiry_check := natStr (← computeCheckDigit m.expiry)
  let personal_field ← pad m.personal 14
  let personal_check := natStr (← computeCheckDigit personal_field)
  let composite_input := doc_field ++ doc_check ++ m.dob ++ dob_check ++ m.expiry ++
    expiry_check ++ personal_field ++ personal_check
  let composite_check := natStr (← computeCheckDigit composite_input)
  let line2 := doc_field ++ doc_check ++ m.nationality ++ m.dob ++ dob_check ++ m.sex ++
    m.expiry ++ expiry_check ++ personal_field ++ personal_check ++ composite_check
  if line2.length ≠ 44 then
    throw (.assertionError ("line2 length " ++ toString line2.length))
  return (line1, line2)

end Hawiya.MrzEncode
