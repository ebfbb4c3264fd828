import Rooti.Core.Security
import Rooti.Core.UploadValidation
import Rooti.Lib.Quoting
import Rooti.Services.Document

/-!
# The endpoints on caregiver documents

An upload passes the gate on size, type and file name before the service is asked.  A download
is answered with the bytes of the file, and its name in a header of ASCII characters.

## Main definitions

* `DocumentApi.upload`, `download` — a file comes in, and goes out
* `StreamingResponse`, `contentDisposition` — what a download is answered
* `unquote_contentDisposition`, `mem_contentDisposition` — the name is carried by a header that
  it cannot break
-/

namespace Rooti

open Program UploadValidation

variable {V D : Type}

/-- `StreamingResponse`: the body with the headers of a download. -/
structure StreamingResponse where
  body : Bytes
  mediaType : String
  contentDisposition : String

namespace DocumentApi

/-- `doc.filename.rsplit("/", 1)[-1]`. -/
def lastName (key : String) : List Char := (key.toList.reverse.takeWhile (· ≠ '/')).reverse

/-- The `content-disposition` of a download; nothing is safe from `quote`. -/
def contentDisposition (key : String) : String :=
  "attachment; filename*=UTF-8''" ++ String.ofList (Percent.quote (lastName key))

theorem toList_contentDisposition (key : String) : (contentDisposition key).toList =
    "attachment; filename*=UTF-8''".toList ++ Percent.quote (lastName key) :=
  String.toList_append.trans (congrArg _ String.toList_ofList)

/-- **The header gives the name back**, whatever letters it has. -/
theorem unquote_contentDisposition (key : String) :
    ((contentDisposition key).toList.dropPrefix? "attachment; filename*=UTF-8''".toList).map
      Percent.unquote = some (lastName key) := by
  have hrest : (contentDisposition key).toList.dropPrefix?
      "attachment; filename*=UTF-8''".toList = some (Percent.quote (lastName key)) := by
    rw [List.dropPrefix?_eq_some_iff]
    exact ⟨_, toList_contentDisposition key, beq_self_eq_true _⟩
  rw [hrest, Option.map_some, Percent.unquote_quote]

/-- **No name of a file ends the header** or stands in it as anything but ASCII. -/
theorem mem_contentDisposition {key : String} {c : Char}
    (h : c ∈ (contentDisposition key).toList) : 0x20 ≤ c.toNat ∧ c.toNat < 0x7F := by
  rw [toList_contentDisposition] at h
  obtain hfixed | hname := List.mem_append.mp h
  · have hall : ("attachment; filename*=UTF-8''".toList.all fun c =>
        0x20 ≤ c.toNat ∧ c.toNat < 0x7F) = true := by decide
    exact of_decide_eq_true (List.all_eq_true.mp hall c hfixed)
  · have hquoted := Percent.mem_quote hname
    unfold Percent.isQuoted Percent.isUnreserved at hquoted
    simp only [Bool.or_eq_true, Bool.and_eq_true, decide_eq_true_eq] at hquoted
    obtain hunreserved | rfl := hquoted
    · omega
    · decide

/-- `upload`. -/
def upload (files : StorageService D) (lower : String → String) (maxFileBytes : ℤ)
    (me : PrincipalDetails) (relationId typeId : ℤ) (file : UploadFile) :
    Async V D DocumentResponse := do
  Prog.ofExcept (validateDocumentUpload lower maxFileBytes file)
  CaregiverDocumentService.upload files me.userId relationId typeId
    (sanitizeFilename file.filename) file.file (file.size.getD 0) file.contentType

/-- `list_by_relation`. -/
def listByRelation (me : PrincipalDetails) (relationId : ℤ) :
    Async V D (List DocumentResponse) :=
  CaregiverDocumentService.listByRelation me.userId relationId

/-- `download`. -/
def download (files : ReadableStorage D) (me : PrincipalDetails) (documentId : ℤ) :
    Async V D StreamingResponse := do
  let doc ← CaregiverDocumentService.loadForDownload me.userId documentId
  let stream ← storage fun disk => (files.openKey doc.filename disk, disk)
  return {
    body := stream
    mediaType := Py.orElse doc.contentType "application/octet-stream"
    contentDisposition := contentDisposition doc.filename }

/-- `delete`. -/
def delete (files : StorageService D) (me : PrincipalDetails) (documentId : ℤ) :
    Async V D Unit := CaregiverDocumentService.delete files me.userId documentId

end DocumentApi

end Rooti
