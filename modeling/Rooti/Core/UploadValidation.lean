import Rooti.Core.Exceptions
import Rooti.Core.Python
import Rooti.Lib.Trim

/-!
# Uploads

An upload is refused for its size, its type or its file name (`validateDocumentUpload`).
`sanitizeFilename` makes the name shown for an uploaded file out of the one the
client sent.
-/

namespace Rooti

namespace UploadValidation

/-- `_BAD_FILENAME_CHARS` -/
def isBad (c : Char) : Bool := c.toNat < 0x20 || c = '/' || c = '\\'

/-- `_BAD_FILENAME_CHARS.sub("_", ·)` on one character. -/
def substituted (c : Char) : Char := if isBad c then '_' else c

/-- `_BAD_FILENAME_CHARS.sub("_", name).strip()` -/
def cleaned (name : String) : List Char := Py.stripChars (name.toList.map substituted)

/-- `sanitize_filename` -/
def sanitizeFilename (name : Option String) : String :=
  match name with
  | none => "upload"
  | some name =>
      if name = "" then "upload"
      else if cleaned name = [] ∨ (cleaned name).all (· = '.') then "upload"
      else String.ofList ((cleaned name).take 255)

/-- `ALLOWED_DOCUMENT_MIME`. -/
def allowedDocumentMime : List String :=
  ["image/jpeg", "image/png", "image/webp", "image/heic", "image/heif", "application/pdf",
    "application/x-hwp", "application/haansofthwp", "application/vnd.hancom.hwp",
    "application/vnd.openxmlformats-officedocument.wordprocessingml.document",
    "application/vnd.openxmlformats-officedocument.spreadsheetml.sheet",
    "application/msword", "application/vnd.ms-excel"]

/-- `(content_type or "").lower().split(";", 1)[0].strip()`, under `str.lower`. -/
def mimeOf (lower : String → String) (contentType : Option String) : String :=
  Py.strip (String.ofList ((lower (contentType.getD "")).toList.takeWhile (· ≠ ';')))

/-- The error of a file that is too large. -/
def fileTooLarge (maxFileBytes : ℤ) : Err :=
  businessExceptionWith .storageFileTooLarge
    ("파일 크기가 너무 큽니다 (최대 " ++ toString (maxFileBytes / (1024 * 1024)) ++ " MB).")

/-- The error of a file of a type that is not on the list. -/
def unsupportedType (mime : String) : Err :=
  businessExceptionWith .invalidInput
    ("지원하지 않는 파일 형식입니다: " ++ if mime = "" then "unknown" else mime)

end UploadValidation

/-- What the form field of an upload holds: `UploadFile`. -/
structure UploadFile where
  filename : Option String := none
  contentType : Option String := none
  size : Option ℤ := none
  file : List UInt8 := []

namespace UploadValidation

/-- `validate_document_upload`, with `multipart_max_file_bytes`. -/
def validateDocumentUpload (lower : String → String) (maxFileBytes : ℤ) (file : UploadFile) :
    Except Err Unit :=
  let size := file.size.getD 0
  let mime := mimeOf lower file.contentType
  if size ≤ 0 then .error (businessExceptionWith .invalidInput "빈 파일은 업로드할 수 없습니다.")
  else if maxFileBytes < size then .error (fileTooLarge maxFileBytes)
  else if mime ∉ allowedDocumentMime then .error (unsupportedType mime)
  else if (file.filename.getD "").toList.any isBad then
    .error (businessExceptionWith .invalidInput "파일명에 사용할 수 없는 문자가 포함돼 있습니다.")
  else .ok ()

end UploadValidation

end Rooti
