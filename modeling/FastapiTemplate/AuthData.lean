import Mathlib.Data.List.Basic
import Mathlib.Data.Int.Notation
import Mathlib.Data.Nat.Notation

/-!
# Data of the user and authentication subsystem

Settings, schemas, JWT payloads and errors as `api/core/config.py`,
`api/constants.py`, `api/apps/user/v0/schemas` and the raising code have them.
Identifiers (`UUID`, `jti`, challenge tokens, OAuth states) are natural numbers
drawn from one supply, so that drawn identifiers are pairwise distinct; instants
are microseconds since the epoch, the resolution of Python's `datetime` and of
`timestamptz`.
-/

namespace FastapiTemplate

abbrev UserId := ℕ
abbrev RoleId := ℕ
abbrev PermissionId := ℕ

/-- Microseconds in a second. -/
def second : ℕ := 1000000

def minutes (n : ℕ) : ℕ := n * 60 * second

def days (n : ℕ) : ℕ := n * 24 * 60 * 60 * second

/-- The settings these services read, with the values of `api/core/config.py`. -/
structure Settings where
  accessTokenExpireMinutes : ℕ := 336
  refreshTokenExpireDays : ℕ := 21
  sudoTokenExpireMinutes : ℕ := 60
  twoFactorChallengeExpireMinutes : ℕ := 5

def settings : Settings := {}

inductive TokenTypes
  | access
  | refresh
  | sudo
  deriving DecidableEq, Repr

/-! ## JWT payloads -/

structure ActClaim where
  id : UserId
  sub : String
  deriving DecidableEq, Repr

/-- The dictionaries the services hand to `_create_token`; `none` is a missing key. -/
structure TokenClaims where
  sub : String
  id : UserId
  scopes : Option (List String) := none
  tokenVersion : Option ℕ := none
  isImpersonation : Option Bool := none
  act : Option ActClaim := none
  deriving DecidableEq, Repr

/-- A decoded JWT payload. `exp` is in whole seconds. -/
structure Payload where
  sub : Option String
  id : Option UserId
  exp : Option ℕ
  jti : Option ℕ
  type : Option TokenTypes
  scopes : Option (List String)
  tokenVersion : Option ℕ
  isImpersonation : Option Bool
  act : Option ActClaim
  deriving DecidableEq, Repr

/-- A token string: one that carries a payload under a valid signature with
`SECRET_KEY`, or any other string. -/
inductive Jwt
  | signed (payload : Payload)
  | unsigned (text : String)
  deriving DecidableEq, Repr

structure TokenDetails where
  token : Jwt
  expiresAt : ℕ
  jti : ℕ
  deriving DecidableEq, Repr

structure TokenData where
  username : String
  id : UserId
  exp : ℕ
  jti : ℕ
  type : TokenTypes
  scopes : List String
  tokenVersion : ℕ
  isImpersonation : Bool
  impersonatorId : Option UserId
  impersonatorUsername : Option String
  deriving DecidableEq, Repr

/-! ## Schemas -/

structure PermissionData where
  id : PermissionId
  name : String
  description : Option String := none
  deriving DecidableEq, Repr

structure RoleData where
  id : RoleId
  name : String
  description : Option String
  permissions : List PermissionData
  deriving DecidableEq, Repr

structure RoleCreate where
  name : String
  description : Option String := none
  permissionIds : List PermissionId := []
  deriving DecidableEq, Repr

structure RoleUpdate where
  name : Option String := none
  description : Option String := none
  permissionIds : Option (List PermissionId) := none
  deriving DecidableEq, Repr

structure UserData where
  id : UserId
  username : String
  email : String
  hashedPassword : Option String
  fullName : Option String
  isActive : Bool
  roles : List RoleData
  tokenVersion : ℕ
  deriving DecidableEq, Repr

structure UserCreate where
  username : String
  email : String
  password : Option String
  fullName : Option String
  isActive : Bool := true
  deriving DecidableEq, Repr

structure UserUpdate where
  fullName : Option String := none
  email : Option String := none
  username : Option String := none
  deriving DecidableEq, Repr

structure UserSessionCreate where
  jti : ℕ
  userId : UserId
  issuedAt : ℕ
  expiresAt : ℕ
  ipAddress : Option String
  userAgent : Option String
  deriving DecidableEq, Repr

/-- One element of `user_two_factor.backup_codes`. -/
structure BackupCodeRecord where
  codeHash : String
  used : Bool := false
  usedAt : Option ℕ := none
  deriving DecidableEq, Repr

structure UserTwoFactorData where
  userId : UserId
  isEnabled : Bool
  secretEncrypted : String
  backupCodes : List BackupCodeRecord
  deriving DecidableEq, Repr

structure GoogleUserInfo where
  sub : String
  email : Option String
  emailVerified : Bool
  name : Option String
  deriving DecidableEq, Repr

structure Token where
  accessToken : Jwt
  refreshToken : Jwt
  deriving DecidableEq, Repr

structure LoginResponse where
  token : Token
  user : UserData
  deriving DecidableEq, Repr

structure SudoTokenResponse where
  sudoToken : Jwt
  expiresIn : ℕ
  deriving DecidableEq, Repr

structure TwoFactorSetupResponse where
  secret : String
  deriving DecidableEq, Repr

structure TwoFactorStatusResponse where
  isEnabled : Bool
  backupCodesRemaining : ℕ
  deriving DecidableEq, Repr

structure ImpersonationResponse where
  accessToken : Jwt
  targetUser : UserData
  impersonatorId : UserId
  impersonatorUsername : String
  expiresAt : ℕ
  deriving DecidableEq, Repr

structure Request where
  clientHost : Option String := none
  userAgent : Option String := none
  deriving DecidableEq, Repr

/-! ## Errors -/

/-- A `detail` text, or the key of a translated one. -/
inductive Detail
  | text (s : String)
  | trans (key : String)
  deriving DecidableEq, Repr

inductive DbError
  | uniqueViolation (constraint : String)
  | foreignKeyViolation (constraint : String)
  | stringDataRightTruncation (column : String)
  | undefinedColumn (column : String)
  deriving DecidableEq, Repr

inductive AppError
  | http (statusCode : ℕ) (detail : Detail)
  | db (error : DbError)
  /-- `redis.exceptions.ResponseError` -/
  | redis (message : String)
  /-- `ValueError`, among them pydantic's `ValidationError` -/
  | value (message : String)
  | key (name : String)
  /-- `cryptography.fernet.InvalidToken` -/
  | invalidToken
  | loginFailed (message : String)
  deriving DecidableEq, Repr

/-! ## Third-party functions -/

/-- The third-party functions the subsystem calls. Functions that draw random
bits take the drawn number as an argument. -/
class External where
  /-- `bcrypt.checkpw`, without its error for passwords of more than 72 bytes -/
  checkpw : String → String → Bool
  /-- `bcrypt.hashpw` with the salt drawn, without that error -/
  hashpw : String → ℕ → String
  /-- `Fernet.encrypt` under the configured key -/
  fernetEncrypt : String → ℕ → String
  /-- `Fernet.decrypt` under the configured key -/
  fernetDecrypt : String → Option String
  /-- `pyotp.random_base32` -/
  randomBase32 : ℕ → String
  /-- `strings_equal(otp, TOTP(secret).generate_otp(counter))` of `pyotp` -/
  otpMatches : String → String → ℤ → Bool
  /-- `hashlib.sha256(..).hexdigest()` -/
  sha256Hex : String → String
  /-- the `i`-th `secrets.token_hex(2)` of a drawn sequence -/
  tokenHex : ℕ → ℕ → String
  /-- `pydantic.EmailStr` accepts the text -/
  emailValid : String → Bool
  /-- `str.upper` -/
  upper : String → String
  /-- `str.lower` -/
  lower : String → String
  /-- `str.isdigit` on one character -/
  isdigit : Char → Bool

/-- An instance to evaluate the model with: one bcrypt hash, the first codes of the TOTP secret
of RFC 4226 and plain text in place of encryption and digests. -/
@[reducible] def External.plain : External where
  checkpw password hash :=
    password = "U*U" && hash = "$2a$05$CCCCCCCCCCCCCCCCCCCCC.E5YPO9kmyuRGyh0XouQYb4YMJKvyOeW"
  hashpw password _ := password
  fernetEncrypt secret _ := secret
  fernetDecrypt text := some text
  randomBase32 _ := "GEZDGNBVGY3TQOJQGEZDGNBVGY3TQOJQ"
  otpMatches secret otp counter :=
    secret = "GEZDGNBVGY3TQOJQGEZDGNBVGY3TQOJQ" &&
      ((0, "755224") :: (1, "287082") :: (2, "359152") :: (3, "969429") :: (4, "338314") ::
        (5, "254676") :: (6, "287922") :: (7, "162583") :: (8, "399871") :: (9, "520489") ::
        []).contains (counter, otp)
  sha256Hex text := text
  tokenHex seed i := String.ofList (Nat.toDigits 16 (4096 + (seed + i) % 61440))
  emailValid text := text.toList.contains '@'
  upper text := String.ofList (text.toList.map Char.toUpper)
  lower text := String.ofList (text.toList.map Char.toLower)
  isdigit := Char.isDigit

end FastapiTemplate
