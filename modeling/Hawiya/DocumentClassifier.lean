import Hawiya.Types

/-!
# Document classification

Uploads are told apart by their magic bytes. Every supported format is a passport to the first
phase; HEIC and unknown bytes are refused with a message.
-/

namespace Hawiya.DocumentClassifier
open PyString

def bytesOf (s : Str) : Bytes := s.map (fun c => UInt8.ofNat c.toNat)

/-- Magic byte prefixes of JPEG, PNG, PDF and the two TIFF byte orders. -/
def acceptedPrefixes : List Bytes :=
  [[0xff, 0xd8, 0xff], [0x89, 0x50, 0x4e, 0x47, 0x0d, 0x0a, 0x1a, 0x0a],
    bytesOf ['%', 'P', 'D', 'F', '-'], [0x49, 0x49, 0x2a, 0x00], [0x4d, 0x4d, 0x00, 0x2a]]

def heicBrands : List Bytes :=
  [bytesOf ['h', 'e', 'i', 'c'], bytesOf ['h', 'e', 'i', 'x'], bytesOf ['h', 'e', 'i', 'm'],
    bytesOf ['h', 'e', 'i', 's'], bytesOf ['m', 'i', 'f', '1'], bytesOf ['m', 's', 'f', '1'],
    bytesOf ['h', 'e', 'i', 'f']]

def magicProbeLen : ℕ := 12
def heicBrandOffset : ℕ := 8
def heicBrandEnd : ℕ := 12

def isHeic (head : Bytes) : Bool :=
  heicBrandEnd ≤ head.length && (head.take 8).drop 4 == bytesOf ['f', 't', 'y', 'p'] &&
    (head.take heicBrandEnd).drop heicBrandOffset ∈ heicBrands

def heicMessage : String :=
  "HEIC/HEIF (iPhone) images aren't supported yet. Export the photo as JPEG " ++
    "(iOS: Settings → Camera → Formats → Most Compatible) and resend."

def unrecognisedMessage (isprintable : Char → Bool) (declared_content_type : Str) : String :=
  "Unrecognised file format. Send a JPEG, PNG, TIFF, or PDF of the passport's photo page. " ++
    "(declared content-type: " ++ String.ofList (strRepr isprintable declared_content_type) ++ ")"

def classify (isprintable : Char → Bool) (payload : Bytes) (declared_content_type : Str) :
    Except PyError DocumentType :=
  if payload = [] then .error (.unsupportedDocumentError "empty payload")
  else
    let head := payload.take magicProbeLen
    if acceptedPrefixes.any (fun p => p.isPrefixOf head) then .ok .passport
    else if isHeic head then .error (.unsupportedDocumentError heicMessage)
    else .error (.unsupportedDocumentError (unrecognisedMessage isprintable declared_content_type))

end Hawiya.DocumentClassifier
