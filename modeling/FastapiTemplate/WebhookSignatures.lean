import FastapiTemplate.PythonTexts
import FastapiTemplate.WebhookDelivery

/-!
# Webhook signatures

`generate_webhook_signature` and `verify_webhook_signature`, with every way in which they can
raise. HMAC-SHA256 is a parameter.
-/

namespace FastapiTemplate.Signatures

open PyText

inductive SignatureError
  | unicodeEncode
  | typeError
  | valueError
  deriving DecidableEq, Repr

def encode (t : PyText) : Except SignatureError (List UInt8) :=
  match encode? t with
  | some bytes => .ok bytes
  | none => .error .unicodeEncode

def compareDigest (a b : PyText) : Except SignatureError Bool :=
  if isAscii a && isAscii b then .ok (decide (a = b)) else .error .typeError

/-! ## The header -/

def addElement (elements : List (PyText × PyText)) (part : PyText) : List (PyText × PyText) :=
  match splitOnce 61 part with
  | some (k, v) => setItem elements (PyText.strip k, PyText.strip v)
  | none => elements

def headerElements (signatureHeader : PyText) : List (PyText × PyText) :=
  (signatureHeader.splitOn 44).foldl addElement []

def element? (signatureHeader : PyText) (key : String) : Option PyText :=
  ((headerElements signatureHeader).find? (·.1 = ofString key)).map (·.2)

/-! ## Signing and verifying -/

def signedPayload (timestamp : PyText) (payloadBytes : List UInt8) :
    Except SignatureError (List UInt8) := do
  let signed ← encode (timestamp ++ ofString ".")
  pure (signed ++ payloadBytes)

section hmac
variable (hmac : List UInt8 → List UInt8 → List UInt8)

def generateWebhookSignature (secret timestamp : PyText) (payloadBytes : List UInt8) :
    Except SignatureError PyText := do
  let signed ← signedPayload timestamp payloadBytes
  let key ← encode secret
  pure (hexdigest (hmac key signed))

def signatureHeader (secret timestamp : PyText) (payloadBytes : List UInt8) :
    Except SignatureError PyText := do
  let signature ← generateWebhookSignature hmac secret timestamp payloadBytes
  pure (ofString "t=" ++ timestamp ++ ofString ",v1=" ++ signature)

def senderHeader (secret : PyText) (time : ℤ) (payloadBytes : List UInt8) :
    Except SignatureError PyText :=
  match ofInt? time with
  | some timestamp => signatureHeader hmac secret timestamp payloadBytes
  | none => .error .valueError

/-- `now` is `int(time.time())`. -/
def verifyWebhookSignature (now : ℤ) (secret signatureHeader : PyText)
    (payloadBytes : List UInt8) (toleranceSeconds : ℤ) : Except SignatureError Bool :=
  if signatureHeader = [] ∨ secret = [] then .ok false
  else
    match element? signatureHeader "t", element? signatureHeader "v1" with
    | some timestamp, some received =>
      if timestamp = [] ∨ received = [] then .ok false
      else
        match int? timestamp with
        | some time =>
          if toleranceSeconds < (now - time).natAbs then .ok false
          else do
            let expected ← generateWebhookSignature hmac secret timestamp payloadBytes
            compareDigest expected received
        | none => .ok false
    | _, _ => .ok false

end hmac

/-! ## When the digests are compared -/

/-- The checks before the comparison are passed, with this timestamp and this signature. -/
structure Compared (now : ℤ) (secret header : PyText) (tolerance : ℤ)
    (timestamp received : PyText) : Prop where
  secretGiven : secret ≠ []
  timestampFound : element? header "t" = some timestamp
  receivedFound : element? header "v1" = some received
  nonempty : received ≠ []
  current : ∃ time, int? timestamp = some time ∧ (now - time).natAbs ≤ tolerance

section verify
variable {hmac : List UInt8 → List UInt8 → List UInt8} {now tolerance : ℤ}
  {secret header timestamp received : PyText} {body : List UInt8}

theorem int?_nil : int? [] = none := rfl

theorem element?_nil (key : String) : element? [] key = none := rfl

theorem verify_of_compared (h : Compared now secret header tolerance timestamp received) :
    verifyWebhookSignature hmac now secret header body tolerance = (do
      let expected ← generateWebhookSignature hmac secret timestamp body
      compareDigest expected received) := by
  obtain ⟨time, htime, hcurrent⟩ := h.current
  have hheader : header ≠ [] := by
    rintro rfl
    have hnone := h.timestampFound
    rw [element?_nil] at hnone
    cases hnone
  have htimestamp : timestamp ≠ [] := by
    rintro rfl
    rw [int?_nil] at htime
    cases htime
  have hnot : ¬ (header = [] ∨ secret = []) := not_or.mpr ⟨hheader, h.secretGiven⟩
  have hfound : ¬ (timestamp = [] ∨ received = []) := not_or.mpr ⟨htimestamp, h.nonempty⟩
  rw [verifyWebhookSignature, if_neg hnot, h.timestampFound, h.receivedFound]
  dsimp only
  rw [if_neg hfound, htime]
  dsimp only
  rw [if_neg (by omega)]

theorem verify_of_not_compared
    (h : ∀ timestamp received, ¬ Compared now secret header tolerance timestamp received) :
    verifyWebhookSignature hmac now secret header body tolerance = .ok false := by
  unfold verifyWebhookSignature
  split_ifs with hempty
  · rfl
  · obtain ⟨hheader, hsecret⟩ := not_or.mp hempty
    cases htimestamp : element? header "t" with
    | none => rfl
    | some timestamp =>
      cases hreceived : element? header "v1" with
      | none => rfl
      | some received =>
        dsimp only
        split_ifs with hfound
        · rfl
        · cases htime : int? timestamp with
          | none => rfl
          | some time =>
            dsimp only
            split_ifs with hold
            · rfl
            · exact absurd ⟨hsecret, htimestamp, hreceived, (not_or.mp hfound).2, time, htime,
                by omega⟩ (h timestamp received)

theorem encode_eq_ok {t : PyText} {bytes : List UInt8} (h : encode? t = some bytes) :
    encode t = .ok bytes := by
  rw [encode, h]

/-- A timestamp that has been parsed can be signed. -/
theorem signedPayload_of_int? (h : (int? timestamp).isSome) : ∃ bytes,
    encode? timestamp = some bytes ∧ (46 : UInt8) ∉ bytes ∧
      ∀ body, signedPayload timestamp body = .ok (bytes ++ 46 :: body) := by
  obtain ⟨time, htime⟩ := Option.isSome_iff_exists.mp h
  obtain ⟨bytes, hbytes, hdot⟩ := encode?_number (intChar_of_int? htime)
  refine ⟨bytes, hbytes, hdot, fun body => ?_⟩
  rw [signedPayload, encode_eq_ok (encode?_append hbytes rfl)]
  change Except.ok (bytes ++ [46] ++ body) = _
  rw [List.append_assoc]
  rfl

theorem generate_of_key (hmac : List UInt8 → List UInt8 → List UInt8) {key : List UInt8}
    (hkey : encode? secret = some key) (h : (int? timestamp).isSome) :
    ∃ bytes, encode? timestamp = some bytes ∧ (46 : UInt8) ∉ bytes ∧
      ∀ body, generateWebhookSignature hmac secret timestamp body =
        .ok (hexdigest (hmac key (bytes ++ 46 :: body))) := by
  obtain ⟨bytes, hbytes, hdot, hsigned⟩ := signedPayload_of_int? h
  refine ⟨bytes, hbytes, hdot, fun body => ?_⟩
  rw [generateWebhookSignature, hsigned body, encode_eq_ok hkey]
  rfl

/-- Every signature is ASCII. -/
theorem isAscii_of_generate {signature : PyText}
    (h : generateWebhookSignature hmac secret timestamp body = .ok signature) :
    isAscii signature = true := by
  obtain ⟨signed, -, h⟩ := except_bind_eq_ok_iff.mp h
  obtain ⟨key, -, h⟩ := except_bind_eq_ok_iff.mp h
  cases h
  exact isAscii_hexdigest _

theorem Compared.int (h : Compared now secret header tolerance timestamp received) :
    (int? timestamp).isSome := by
  obtain ⟨time, htime, -⟩ := h.current
  rw [htime]
  rfl

/-- What has been accepted has been compared, and equals the signature. -/
theorem verify_eq_true_iff :
    verifyWebhookSignature hmac now secret header body tolerance = .ok true ↔
      ∃ timestamp received, Compared now secret header tolerance timestamp received ∧
        generateWebhookSignature hmac secret timestamp body = .ok received := by
  constructor
  · intro h
    by_cases hcompared : ∃ timestamp received,
        Compared now secret header tolerance timestamp received
    · obtain ⟨timestamp, received, hcompared⟩ := hcompared
      refine ⟨timestamp, received, hcompared, ?_⟩
      rw [verify_of_compared hcompared] at h
      obtain ⟨expected, hexpected, hequal⟩ := except_bind_eq_ok_iff.mp h
      unfold compareDigest at hequal
      split_ifs at hequal
      simp only [Except.ok.injEq, decide_eq_true_eq] at hequal
      rw [hexpected, hequal]
    · rw [verify_of_not_compared (fun timestamp received hc => hcompared ⟨_, _, hc⟩)] at h
      cases h
  · rintro ⟨timestamp, received, hcompared, hsignature⟩
    rw [verify_of_compared hcompared, hsignature]
    change compareDigest received received = .ok true
    rw [compareDigest, isAscii_of_generate hsignature, if_pos (Bool.and_self true)]
    simp

end verify

end FastapiTemplate.Signatures
