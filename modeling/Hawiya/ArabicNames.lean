import Hawiya.Types

/-!
# Arabic name normalisation and phonetic keys

The canonical and matching forms of a name, and the Soundex-style key written with each name
variant. The parts of the Unicode character database the functions rest on are a parameter.
-/

namespace Hawiya.ArabicNames
open PyString

/-- `unicodedata.normalize("NFC", ·)`, `str.casefold`, `str.upper`, `str.isalpha` and
`str.isprintable`. -/
structure Unicode where
  nfc : Str → Str
  casefold : Str → Str
  upper : Str → Str
  isalpha : Char → Bool
  isprintable : Char → Bool

def inRange (lo hi : ℕ) (c : Char) : Bool := lo ≤ c.toNat && c.toNat ≤ hi

/-- Tashkeel, superscript alef and the rare marks above. -/
def isDiacritic (c : Char) : Bool :=
  inRange 0x64b 0x65f c || c.toNat == 0x670 || inRange 0x6d6 0x6ed c

def alefTrans (c : Char) : Char :=
  if c ∈ ['\u0623', '\u0625', '\u0622', '\u0671'] then '\u0627' else c

def yaaTrans (c : Char) : Char := if c ∈ ['\u0649', '\u0626'] then '\u064a' else c

def hamzaTrans (c : Char) : Char := if c = '\u0624' then '\u0648' else c

def taaMarbutaTrans (c : Char) : Char := if c = '\u0629' then '\u0647' else c

def stripDiacritics (name : Str) : Str := name.filter (fun c => !isDiacritic c)
def normalizeAlef (name : Str) : Str := name.map alefTrans
def normalizeYaa (name : Str) : Str := name.map yaaTrans
def normalizeHamza (name : Str) : Str := name.map hamzaTrans
def normalizeTaaMarbuta (name : Str) : Str := name.map taaMarbutaTrans

/-- A lower-case letter of the prefix pattern under `re.IGNORECASE`, where `i` also matches its
dotted and dotless Turkish forms. -/
def matchesLetter (p c : Char) : Bool :=
  c == p || c == p.toUpper || (p == 'i' && (c == '\u0130' || c == '\u0131'))

/-- What follows the literal `word`, if `s` begins with it. -/
def afterWord : Str → Str → Option Str
  | [], s => some s
  | _ :: _, [] => none
  | p :: word, c :: s => if matchesLetter p c then afterWord word s else none

/-- `[-\s]+` to the end of its run. -/
def afterSeparators (s : Str) : Option Str :=
  let rest := s.dropWhile (fun c => c == '-' || isspace c)
  if rest.length < s.length then some rest else none

/-- `\s+` followed by the literal `word`. -/
def afterSpacedWord (word s : Str) : Option Str :=
  let rest := s.dropWhile isspace
  if rest.length < s.length then afterWord word rest else none

/-- The alternatives of the Latin prefix pattern, in its order. -/
def latinPrefixes : List (Str → Option Str) :=
  [afterWord ['a', 'l'], afterWord ['e', 'l'], afterWord ['b', 'i', 'n'],
    afterWord ['b', 'i', 'n', 't'], afterWord ['i', 'b', 'n'], afterWord ['a', 'b', 'd', 'u', 'l'],
    fun s => (afterWord ['a', 'b', 'd'] s).bind (afterSpacedWord ['a', 'l']),
    fun s => (afterWord ['a', 'b', 'd'] s).bind (afterSpacedWord ['e', 'l'])]

/-- The rest of the name after a match of the Latin prefix pattern at its start. -/
def afterLatinPrefix (name : Str) : Option Str :=
  latinPrefixes.findSome? (fun alternative => (alternative name).bind afterSeparators)

def arabicPrefixes : List Str := [['\u0627', '\u0644']]

def stripPrefixes (name : Str) : Str :=
  if name = [] then name
  else
    let stripped := strip ((afterLatinPrefix name).getD name)
    if stripped ≠ name then stripped
    else
      match arabicPrefixes.find? (fun p => p.isPrefixOf stripped && p.length < stripped.length) with
      | some p => stripped.drop p.length
      | none => stripped

variable (u : Unicode)

def toCanonical (name : Str) : Str :=
  if name = [] then name
  else joinWith ' ' (splitWords
    (normalizeHamza (normalizeYaa (normalizeAlef (stripDiacritics (u.nfc name))))))

def toMatchingForm (name : Str) : Str :=
  if name = [] then name else u.casefold (normalizeTaaMarbuta (toCanonical u name))

def isArabicScript (text : Str) : Bool := text.any (inRange 0x600 0x6ff)

/-- `table.get(ch, "")` for a table given by the letters of each code. -/
def codeOf (table : List (Str × Str)) (ch : Char) : Str :=
  ((table.find? (fun e => ch ∈ e.1)).map Prod.snd).getD []

def arPhoneticMap : List (Str × Str) :=
  [(['\u0628'], ['B']), (['\u0641', '\u0648'], ['F']),
    (['\u062f', '\u062a', '\u0637', '\u0636'], ['T']),
    (['\u0633', '\u0635', '\u062b', '\u0634'], ['S']),
    (['\u0632', '\u0630', '\u0638'], ['Z']), (['\u062c'], ['J']),
    (['\u062d', '\u0647', '\u062e'], ['H']), (['\u0639', '\u063a', '\u0621'], ['A']),
    (['\u0643', '\u0642'], ['K']), (['\u0644'], ['L']), (['\u0645'], ['M']),
    (['\u0646'], ['N']), (['\u0631'], ['R']), (['\u064a', '\u0627'], [])]

def latinPhoneticMap : List (Str × Str) :=
  [(['B', 'P', 'V'], ['B']), (['F'], ['F']), (['C', 'G', 'J', 'K', 'Q', 'X'], ['K']),
    (['S'], ['S']), (['Z'], ['Z']), (['D', 'T'], ['T']), (['L'], ['L']), (['M', 'N'], ['N']),
    (['R'], ['R']), (['H', 'W'], []), (['A', 'E', 'I', 'O', 'U', 'Y'], [])]

def phoneticKeyLength : ℕ := 6

/-- Drop empty codes and collapse adjacent duplicates. -/
def compress (codes : List Str) : Str :=
  (codes.foldl (fun out c =>
    if c = [] then out else if out.getLast? = some c then out else out ++ [c]) []).flatten

def arabicPhonetic (name : Str) : Str :=
  let body := stripPrefixes (toMatchingForm u name)
  let codes := (body.filter (fun ch => !isspace ch)).map (codeOf arPhoneticMap)
  (compress codes).take phoneticKeyLength

def latinPhonetic (name : Str) : Str :=
  let body := u.upper (stripPrefixes name)
  let codes := (body.filter u.isalpha).map (codeOf latinPhoneticMap)
  (compress codes).take phoneticKeyLength

def phoneticKey (name : Str) : Str :=
  if name = [] ∨ strip name = [] then []
  else if isArabicScript name then arabicPhonetic u name
  else latinPhonetic u name

end Hawiya.ArabicNames
