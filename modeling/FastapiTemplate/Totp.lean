import FastapiTemplate.AuthCalls

/-!
# One-time passwords and backup codes

`api/utils/totp.py`, with the string functions of Python that it uses. A one-time
password belongs to a counter, the number of its 30-second step; `verifyTotp`
accepts the codes of the steps within `validWindow` of the current one.
-/

namespace FastapiTemplate

/-! ## Python strings -/

def isSpace (c : Char) : Bool :=
  let n := c.toNat
  (9 ≤ n && n ≤ 13) || (28 ≤ n && n ≤ 32) || n = 0x85 || n = 0xa0 || n = 0x1680 ||
    (0x2000 ≤ n && n ≤ 0x200a) || n = 0x2028 || n = 0x2029 || n = 0x202f || n = 0x205f || n = 0x3000

def strip (s : String) : String :=
  String.ofList ((s.toList.dropWhile isSpace).reverse.dropWhile isSpace).reverse

def removeChar (c : Char) (s : String) : String := String.ofList (s.toList.filter (· ≠ c))

variable [External]

/-! ## Secrets -/

def encryptSecret (secret : String) : App String := do
  let nonce ← App.draw
  pure (External.fernetEncrypt secret nonce)

def decryptSecret (encryptedSecret : String) : App String :=
  match External.fernetDecrypt encryptedSecret with
  | some secret => pure secret
  | none => App.raise .invalidToken

def generateTotpSecret : App String := do
  let seed ← App.draw
  pure (External.randomBase32 seed)

/-! ## One-time passwords -/

def totpInterval : ℕ := 30

/-- The counter of the time step that contains an instant. -/
def timeStep (now : ℕ) : ℕ := now / (totpInterval * second)

/-- `pyotp.TOTP(secret).verify(otp, valid_window=..)` at an instant. -/
def totpVerify (secret otp : String) (validWindow now : ℕ) : Bool :=
  (List.range (2 * validWindow + 1)).any
    (fun i => External.otpMatches secret otp ((timeStep now : ℤ) - validWindow + i))

def cleanedCode (code : String) : String := removeChar ' ' (strip code)

/-- `verify_totp` at an instant. -/
def totpValid (secret code : String) (now : ℕ) : Bool :=
  let cleaned := cleanedCode code
  if ¬ cleaned.toList.all External.isdigit ∨ cleaned.length ≠ 6 then false
  else totpVerify secret cleaned 1 now

def verifyTotp (secret code : String) : App Bool := do
  let now ← App.now
  pure (totpValid secret code now)

/-! ## Backup codes -/

def hashBackupCode (code : String) : String :=
  External.sha256Hex (External.upper (removeChar '-' (strip code)))

/-- The codes of one draw, in the format `XXXX-XXXX`. -/
def drawnBackupCode (seed i : ℕ) : String :=
  External.upper (External.tokenHex seed (2 * i)) ++ "-" ++
    External.upper (External.tokenHex seed (2 * i + 1))

def generateBackupCodes (count : ℕ) : App (List String × List BackupCodeRecord) := do
  let seed ← App.draw
  let plaintextCodes := (List.range count).map (drawnBackupCode seed)
  pure (plaintextCodes, plaintextCodes.map (fun code => { codeHash := hashBackupCode code }))

omit [External] in
/-- The loop over the records: the first unused record with the hash is marked. -/
def consumeRecord (candidateHash : String) (now : ℕ) :
    List BackupCodeRecord → Bool × List BackupCodeRecord
  | [] => (false, [])
  | item :: rest =>
    if item.codeHash = candidateHash ∧ ¬ item.used then
      (true, { item with used := true, usedAt := some now } :: rest)
    else
      ((consumeRecord candidateHash now rest).1, item :: (consumeRecord candidateHash now rest).2)

def verifyAndConsumeBackupCode (backupCodes : List BackupCodeRecord) (candidateCode : String) :
    App (Bool × List BackupCodeRecord) := do
  let now ← App.now
  pure (consumeRecord (hashBackupCode candidateCode) now backupCodes)

end FastapiTemplate
