import Hawiya.Lib.Masking
import Hawiya.Lib.PyString

/-!
# Redaction of personal data before logging

`redact_pii` replaces the values of sensitive keys and, in every string it meets, what looks like an
MRZ line, a passport number, an e-mail address or a date. The four substitutions run one after the
other, each on what the one before has left.
-/

namespace Hawiya

open PyString Regex

def sensitiveKeys : List Str :=
  ["passport_number", "passport_no", "document_number", "doc_number", "mrz", "mrz_line_1",
    "mrz_line_2", "mrz_line_3", "emirates_id", "national_id", "gcc_id", "identifier_value", "name",
    "full_name", "given_names", "surname", "family_name", "canonical_name_ar", "canonical_name_en",
    "name_value", "date_of_birth", "dob", "birth_date", "nationality", "place_of_birth", "photo",
    "photo_bytes", "image", "image_bytes", "signature", "address", "phone", "phone_number", "email",
    "password", "authorization", "token", "secret", "api_key"].map String.toList

def redacted : Str := "***REDACTED***".toList

def isCapital (c : Char) : Bool := 'A' ≤ c && c ≤ 'Z'

def isLetter (c : Char) : Bool := isCapital c || ('a' ≤ c && c ≤ 'z')

def isAsciiDigit (c : Char) : Bool := '0' ≤ c && c ≤ '9'

/-- `\d`, which takes the decimal digits of every script. -/
def isDecimal (c : Char) : Bool := (decimalValue? c).isSome

def isMrzChar (c : Char) : Bool := isCapital c || isAsciiDigit c || c == '<'

def isLocalChar (c : Char) : Bool :=
  isLetter c || isAsciiDigit c || c == '.' || c == '_' || c == '%' || c == '+' || c == '-'

def isDomainChar (c : Char) : Bool := isLetter c || isAsciiDigit c || c == '.' || c == '-'

/-- What `re` takes for a word character of a `str` pattern: letters and digits of any script, and
the underscore. -/
structure Words where
  isWord : Char → Bool
  ascii : ∀ c : Char, c.toNat < 128 → isWord c = (isLetter c || isAsciiDigit c || c == '_')
  decimal : ∀ c, isDecimal c = true → isWord c = true

def passportBody : Pattern := .seq (.many 1 (some 2) isCapital) (.many 6 (some 9) isAsciiDigit)

def passportRe : Pattern := .between passportBody

def mrzLineRe : Pattern := .many 30 none isMrzChar

def dateBody : Pattern :=
  .seq (.alt (.seq (.lit '1') (.lit '9')) (.seq (.lit '2') (.lit '0')))
    (.seq (.many 2 (some 2) isDecimal)
      (.seq (.lit '-')
        (.seq (.many 2 (some 2) isDecimal)
          (.seq (.lit '-') (.many 2 (some 2) isDecimal)))))

def dateRe : Pattern := .between dateBody

def emailRe : Pattern :=
  .seq (.many 1 none isLocalChar)
    (.seq (.lit '@')
      (.seq (.many 1 none isDomainChar)
        (.seq (.lit '.') (.many 2 none isLetter))))

/-- A Python value: a mapping with string keys, which are distinct and have an order, a list, a
tuple, a string, or anything else, which `redact_pii` does not look into. -/
inductive PyValue (σ : Type) where
  | mapping (n : ℕ) (key : Fin n → Str) (distinct : Function.Injective key)
      (value : Fin n → PyValue σ)
  | list (n : ℕ) (item : Fin n → PyValue σ)
  | tuple (n : ℕ) (item : Fin n → PyValue σ)
  | str (value : Str)
  | scalar (value : σ)

section Redaction
variable (words : Words) (lower : Str → Str) {α σ : Type}

/-- `lower` is `str.lower`. -/
def isSensitiveKey (key : Str) : Bool := sensitiveKeys.contains (lower key)

/-- The substitutions of `_redact_string`, on a text whose characters may carry further data. -/
def redactText (char : α → Char) (marker value : List α) : List α :=
  let value := sub words.isWord mrzLineRe char marker value
  let value := sub words.isWord passportRe char marker value
  let value := sub words.isWord emailRe char marker value
  sub words.isWord dateRe char marker value

def redactString (value : Str) : Str := redactText words id redacted value

/-- The assignment `out[k] = …` adds an entry each time, since the keys are distinct. -/
def redactPii : PyValue σ → PyValue σ
  | .mapping n key distinct value =>
    .mapping n key distinct fun k =>
      if isSensitiveKey lower (key k) then .str redacted else redactPii (value k)
  | .list n item => .list n fun k => redactPii (item k)
  | .tuple n item => .tuple n fun k => redactPii (item k)
  | .str value => .str (redactString words value)
  | .scalar value => .scalar value

end Redaction

end Hawiya
