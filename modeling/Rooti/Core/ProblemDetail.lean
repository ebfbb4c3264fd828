import Rooti.Core.Exceptions
import Rooti.Lib.Json

/-!
# Problem details

The body of an error response, and the handler of the errors that pydantic finds in
a request.  A dictionary is the list of its entries in the order they came in.
-/

namespace Rooti

/-- `ErrorCode.name` -/
def ErrorCode.name : ErrorCode → String
  | invalidInput => "INVALID_INPUT"
  | methodNotAllowed => "METHOD_NOT_ALLOWED"
  | resourceNotFound => "RESOURCE_NOT_FOUND"
  | conflict => "CONFLICT"
  | unprocessable => "UNPROCESSABLE"
  | readOnly => "READ_ONLY"
  | authInvalidCredentials => "AUTH_INVALID_CREDENTIALS"
  | authTokenExpired => "AUTH_TOKEN_EXPIRED"
  | authTokenInvalid => "AUTH_TOKEN_INVALID"
  | authRefreshNotFound => "AUTH_REFRESH_NOT_FOUND"
  | authForbidden => "AUTH_FORBIDDEN"
  | authAccountDisabled => "AUTH_ACCOUNT_DISABLED"
  | userNotFound => "USER_NOT_FOUND"
  | userUsernameDuplicated => "USER_USERNAME_DUPLICATED"
  | userEmailDuplicated => "USER_EMAIL_DUPLICATED"
  | companyNotFound => "COMPANY_NOT_FOUND"
  | workerNotFound => "WORKER_NOT_FOUND"
  | workerAlreadyHired => "WORKER_ALREADY_HIRED"
  | caregiverNotFound => "CAREGIVER_NOT_FOUND"
  | caregiverRelationDuplicated => "CAREGIVER_RELATION_DUPLICATED"
  | jobStandardNotFound => "JOB_STANDARD_NOT_FOUND"
  | jobProcessNotFound => "JOB_PROCESS_NOT_FOUND"
  | jobWorkerNotFound => "JOB_WORKER_NOT_FOUND"
  | jobWorkerAlreadyAssigned => "JOB_WORKER_ALREADY_ASSIGNED"
  | workScheduleNotFound => "WORK_SCHEDULE_NOT_FOUND"
  | workRecordNotFound => "WORK_RECORD_NOT_FOUND"
  | workRecordOutOfRange => "WORK_RECORD_OUT_OF_RANGE"
  | documentNotFound => "DOCUMENT_NOT_FOUND"
  | documentTypeNotFound => "DOCUMENT_TYPE_NOT_FOUND"
  | storageUploadFailed => "STORAGE_UPLOAD_FAILED"
  | storageFileTooLarge => "STORAGE_FILE_TOO_LARGE"
  | boardNotFound => "BOARD_NOT_FOUND"
  | notificationSendFailed => "NOTIFICATION_SEND_FAILED"
  | internalError => "INTERNAL_ERROR"

section Dictionaries

variable {β : Type}

/-- `d[key] = value` -/
def Py.dictSet (d : List (String × β)) (key : String) (value : β) : List (String × β) :=
  if key ∈ d.map Prod.fst then d.map fun f => if f.1 = key then (key, value) else f
  else d ++ [(key, value)]

/-- The keys of a dictionary after an assignment. -/
theorem Py.mem_keys_dictSet {d : List (String × β)} {key key' : String} {value : β} :
    key' ∈ (Py.dictSet d key value).map Prod.fst ↔ key' ∈ d.map Prod.fst ∨ key' = key := by
  unfold Py.dictSet
  split_ifs with hkey
  · have hsame : (d.map fun f => if f.1 = key then (key, value) else f).map Prod.fst =
        d.map Prod.fst := by
      rw [List.map_map]
      refine List.map_congr_left fun f _ => ?_
      dsimp only [Function.comp]
      split_ifs with hf
      · exact hf.symm
      · rfl
    rw [hsame]
    refine ⟨.inl, fun h => h.elim id fun heq => heq ▸ hkey⟩
  · rw [List.map_append, List.mem_append, List.map_singleton, List.mem_singleton]

end Dictionaries

/-- `d.update(other)` -/
def Py.dictUpdate (d other : List (String × Json)) : List (String × Json) :=
  other.foldl (fun d f => Py.dictSet d f.1 f.2) d

/-- `build_problem_detail`: the content of the response, at the instant `timestamp`. -/
def buildProblemDetail (timestamp : String) (errorCode : ErrorCode) (detail instance_ : String)
    (extras : Option (List (String × Json))) : Json :=
  let body : List (String × Json) :=
    [("type", .str ("https://docs.rooti.io/errors" ++ "/" ++
        String.ofList (errorCode.name.toList.map Char.toLower))),
      ("title", .str errorCode.name),
      ("status", .int errorCode.statusCode),
      ("detail", .str detail),
      ("instance", .str instance_),
      ("code", .str errorCode.name),
      ("timestamp", .str timestamp)]
  .obj (Py.dictUpdate body (extras.getD []))

/-- An item of a location: the name of a part or a field, or an index. -/
inductive LocItem
  | name (s : String)
  | index (n : ℤ)
  deriving DecidableEq, Repr

/-- `str(p)` -/
def LocItem.str : LocItem → List Char
  | name s => s.toList
  | index n => (toString n).toList

/-- An error of `exc.errors()`; `err.get("loc", ())` and `err.get("msg", "invalid")` stand for
what it leaves out. -/
structure ValidationError where
  loc : Option (List LocItem)
  msg : Option String
  deriving DecidableEq, Repr

/-- `".".join(str(p) for p in err.get("loc", ()) if p not in ("body",))` -/
def fieldKey (err : ValidationError) : String :=
  String.ofList (['.'].intercalate
    (((err.loc.getD []).filter fun p => p ≠ .name "body").map LocItem.str))

/-- The `fields` of a list of errors. -/
def fieldsOf (errors : List ValidationError) : List (String × Json) :=
  errors.foldl (fun fields err =>
    if fieldKey err = "" then fields
    else Py.dictSet fields (fieldKey err) (.str (err.msg.getD "invalid"))) []

/-- `_validation_handler` -/
def validationHandler (timestamp path : String) (errors : List ValidationError) : Json :=
  let fields := fieldsOf errors
  buildProblemDetail timestamp .invalidInput ErrorCode.invalidInput.defaultMessage path
    (if fields = [] then none else some [("fields", .obj fields)])

end Rooti
