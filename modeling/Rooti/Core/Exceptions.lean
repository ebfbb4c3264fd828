import Mathlib.Data.Int.Notation
import Rooti.Lib.Table

/-!
# Errors and what a client sees of them

`ErrorCode` lists the codes with their HTTP status and default message.  An
`Err` is an exception on its way out of a request: a business exception, a
database error with its SQLSTATE, or any other Python exception.  The exception
handlers turn it into the code of the problem detail (`Err.errorCode`).
-/

namespace Rooti

open Relational

/-- `ErrorCode`. -/
inductive ErrorCode
  | invalidInput | methodNotAllowed | resourceNotFound | conflict | unprocessable | readOnly
  | authInvalidCredentials | authTokenExpired | authTokenInvalid | authRefreshNotFound
  | authForbidden | authAccountDisabled
  | userNotFound | userUsernameDuplicated | userEmailDuplicated
  | companyNotFound
  | workerNotFound | workerAlreadyHired
  | caregiverNotFound | caregiverRelationDuplicated
  | jobStandardNotFound | jobProcessNotFound | jobWorkerNotFound | jobWorkerAlreadyAssigned
  | workScheduleNotFound | workRecordNotFound | workRecordOutOfRange
  | documentNotFound | documentTypeNotFound
  | storageUploadFailed | storageFileTooLarge
  | boardNotFound
  | notificationSendFailed
  | internalError
  deriving DecidableEq, Repr

namespace ErrorCode

/-- The HTTP status of a code. -/
def statusCode : ErrorCode → ℕ
  | invalidInput => 400
  | methodNotAllowed => 405
  | resourceNotFound => 404
  | conflict => 409
  | unprocessable => 422
  | readOnly => 503
  | authInvalidCredentials => 401
  | authTokenExpired => 401
  | authTokenInvalid => 401
  | authRefreshNotFound => 401
  | authForbidden => 403
  | authAccountDisabled => 403
  | userNotFound => 404
  | userUsernameDuplicated => 409
  | userEmailDuplicated => 409
  | companyNotFound => 404
  | workerNotFound => 404
  | workerAlreadyHired => 409
  | caregiverNotFound => 404
  | caregiverRelationDuplicated => 409
  | jobStandardNotFound => 404
  | jobProcessNotFound => 404
  | jobWorkerNotFound => 404
  | jobWorkerAlreadyAssigned => 409
  | workScheduleNotFound => 404
  | workRecordNotFound => 404
  | workRecordOutOfRange => 422
  | documentNotFound => 404
  | documentTypeNotFound => 404
  | storageUploadFailed => 500
  | storageFileTooLarge => 413
  | boardNotFound => 404
  | notificationSendFailed => 502
  | internalError => 500

/-- The message of an exception raised without one. -/
def defaultMessage : ErrorCode → String
  | invalidInput => "요청 값이 올바르지 않습니다."
  | methodNotAllowed => "허용되지 않은 메서드입니다."
  | resourceNotFound => "요청한 자원을 찾을 수 없습니다."
  | conflict => "리소스 충돌이 발생했습니다."
  | unprocessable => "요청을 처리할 수 없습니다."
  | readOnly =>
      "현재 읽기 전용 모드입니다. 데이터 변경(보내기)은 일시적으로 비활성화되어 있습니다."
  | authInvalidCredentials => "아이디 또는 비밀번호가 올바르지 않습니다."
  | authTokenExpired => "토큰이 만료되었습니다."
  | authTokenInvalid => "유효하지 않은 토큰입니다."
  | authRefreshNotFound => "리프레시 토큰이 존재하지 않습니다."
  | authForbidden => "접근 권한이 없습니다."
  | authAccountDisabled => "비활성화된 계정입니다."
  | userNotFound => "사용자를 찾을 수 없습니다."
  | userUsernameDuplicated => "이미 사용 중인 아이디입니다."
  | userEmailDuplicated => "이미 사용 중인 이메일입니다."
  | companyNotFound => "회사를 찾을 수 없습니다."
  | workerNotFound => "근로자를 찾을 수 없습니다."
  | workerAlreadyHired => "이미 채용된 근로자입니다."
  | caregiverNotFound => "보호자를 찾을 수 없습니다."
  | caregiverRelationDuplicated => "이미 연결된 보호자-근로자 관계입니다."
  | jobStandardNotFound => "업무 표준을 찾을 수 없습니다."
  | jobProcessNotFound => "업무 프로세스를 찾을 수 없습니다."
  | jobWorkerNotFound => "업무-근로자 매핑을 찾을 수 없습니다."
  | jobWorkerAlreadyAssigned => "이미 해당 근로자에게 할당된 업무입니다."
  | workScheduleNotFound => "근무 일정을 찾을 수 없습니다."
  | workRecordNotFound => "근무 기록을 찾을 수 없습니다."
  | workRecordOutOfRange => "근무 기록 시간이 일정 범위를 벗어났습니다."
  | documentNotFound => "문서를 찾을 수 없습니다."
  | documentTypeNotFound => "문서 종류를 찾을 수 없습니다."
  | storageUploadFailed => "파일 업로드에 실패했습니다."
  | storageFileTooLarge => "파일 크기가 너무 큽니다."
  | boardNotFound => "게시글을 찾을 수 없습니다."
  | notificationSendFailed => "푸시 전송에 실패했습니다."
  | internalError => "서버 내부 오류가 발생했습니다."

end ErrorCode

/-- An exception leaving a function of the server. -/
inductive Err
  /-- `BusinessException` -/
  | business (code : ErrorCode) (message : String)
  /-- a driver error wrapped by SQLAlchemy, with its SQLSTATE -/
  | database (sqlstate : String)
  /-- any other exception, by its class and text -/
  | python (cls text : String)
  deriving DecidableEq, Repr

namespace Err

/-- `_is_read_only_violation` on the errors the database raises. -/
def isReadOnlyViolation : Err → Bool
  | .database s => s = "25006"
  | _ => false

/-- The code of the problem detail the exception handlers answer with. -/
def errorCode : Err → ErrorCode
  | .business code _ => code
  | e => if e.isReadOnlyViolation then .readOnly else .internalError

/-- `str(e)`. -/
def text : Err → String
  | .business _ message => message
  | .database s => s
  | .python _ t => t

end Err

/-- `BusinessException(code)`. -/
def businessException (code : ErrorCode) : Err := .business code code.defaultMessage

/-- `BusinessException(code, message)`: an empty message falls back to the default. -/
def businessExceptionWith (code : ErrorCode) (message : String) : Err :=
  .business code (if message = "" then code.defaultMessage else message)

def authInvalidCredentialsException : Err := businessException .authInvalidCredentials

def authAccountDisabledException : Err :=
  businessExceptionWith .authAccountDisabled "비활성화된 계정입니다. 관리자에게 문의하세요."

def authRefreshNotFoundException : Err :=
  businessExceptionWith .authRefreshNotFound "리프레시 토큰이 만료되었거나 폐기되었습니다."

def authTokenInvalidException (detail : String) : Err :=
  businessExceptionWith .authTokenInvalid detail

def authTokenExpiredException : Err := businessExceptionWith .authTokenExpired "Token expired"

def authForbiddenException : Err := businessException .authForbidden

def authForbiddenExceptionWith (detail : String) : Err :=
  businessExceptionWith .authForbidden detail

def userNotFoundException (userId : ℤ) : Err :=
  businessExceptionWith .userNotFound ("사용자를 찾을 수 없습니다: id=" ++ toString userId)

def userUsernameDuplicatedException (username : String) : Err :=
  businessExceptionWith .userUsernameDuplicated ("이미 사용 중인 아이디입니다: " ++ username)

def userEmailDuplicatedException (email : String) : Err :=
  businessExceptionWith .userEmailDuplicated ("이미 사용 중인 이메일입니다: " ++ email)

/-- A failed `assert`. -/
def assertionError : Err := .python "AssertionError" ""

/-- A value pydantic refuses for a field. -/
def validationError : Err := .python "ValidationError" "validation error"

/-- `scalar_one_or_none()` on several rows. -/
def multipleResultsFound : Err :=
  .python "MultipleResultsFound" "Multiple rows were found when one or none was required"

/-- `.one()` on no row. -/
def noResultFound : Err := .python "NoResultFound" "No row was found when one was required"

/-- An attribute of a mapped object that would have to be loaded on access. -/
def missingGreenlet : Err := .python "MissingGreenlet" "greenlet_spawn has not been called"

/-- A statement in a transaction that already failed. -/
def pendingRollbackError : Err :=
  .python "PendingRollbackError" "This Session's transaction has been rolled back"

/-- The SQLSTATE PostgreSQL reports for a violated constraint. -/
def sqlstate : Violation → String
  | .check => "22000"
  | .unique => "23505"
  | .reference => "23503"
  | .missing => "02000"

/-- The error of a statement refused for a violated constraint. -/
def violationError (v : Violation) : Err := .database (sqlstate v)

end Rooti
