import FastapiTemplate.WebhookSignatures

/-!
# What a webhook signature guarantees

The header of a sender is read back as its timestamp and its signature. A timestamp that `int`
reads has no full stop, so the signed bytes say where it ends. The comparison raises for a
signature that is not ASCII, and nothing catches that.
-/

namespace FastapiTemplate.Signatures

open PyText

variable {hmac : List UInt8 → List UInt8 → List UInt8} {secret timestamp signature header : PyText}
  {body : List UInt8} {time now tolerance : ℤ}

/-! ## The header of a sender -/

/-- A value without commas and white space survives the header. -/
def Plain (value : PyText) : Prop := 44 ∉ value ∧ ∀ u ∈ value, PyText.isSpace u = false

theorem Plain.strip_eq {value : PyText} (h : Plain value) : PyText.strip value = value :=
  stripWhere_eq_self h.2

theorem addElement_eq (elements : List (PyText × PyText)) {key value : PyText} (hkey : 61 ∉ key)
    (hstrip : PyText.strip key = key) (hvalue : Plain value) :
    addElement elements (key ++ 61 :: value) = setItem elements (key, value) := by
  rw [addElement, splitOnce_append hkey]
  dsimp only
  rw [hstrip, hvalue.strip_eq]

theorem headerElements_eq (htimestamp : Plain timestamp) (hsignature : Plain signature) :
    headerElements (ofString "t=" ++ timestamp ++ ofString ",v1=" ++ signature) =
      [(ofString "t", timestamp), (ofString "v1", signature)] := by
  have hparts : ofString "t=" ++ timestamp ++ ofString ",v1=" ++ signature =
      (ofString "t" ++ 61 :: timestamp) ++ 44 :: (ofString "v1" ++ 61 :: signature) := by
    rw [List.append_assoc, List.append_assoc]
    rfl
  have hfirst : 44 ∉ ofString "t" ++ 61 :: timestamp := by
    simp only [List.mem_append, List.mem_cons, not_or]
    exact ⟨by decide, by decide, htimestamp.1⟩
  have hsecond : 44 ∉ ofString "v1" ++ 61 :: signature := by
    simp only [List.mem_append, List.mem_cons, not_or]
    exact ⟨by decide, by decide, hsignature.1⟩
  rw [headerElements, hparts, List.splitOn_append_cons_self_of_not_mem hfirst,
    List.splitOn_eq_singleton hsecond, List.foldl_cons, List.foldl_cons, List.foldl_nil,
    addElement_eq _ (by decide) (by decide) htimestamp,
    addElement_eq _ (by decide) (by decide) hsignature]
  rfl

theorem plain_ofInt? (h : ofInt? time = some timestamp) : Plain timestamp := by
  have hchars := (ofInt?_chars h).2
  refine ⟨fun hcomma => ?_, fun u hu => ?_⟩
  · rcases hchars 44 hcomma with heq | ⟨d, hd, heq⟩ <;> omega
  · have hdigits : ∀ d < 10, PyText.isSpace (48 + d) = false := by decide
    rcases hchars u hu with rfl | ⟨d, hd, rfl⟩
    · decide
    · exact hdigits d hd

theorem plain_hexdigest (digest : List UInt8) : Plain (hexdigest digest) := by
  have hspace : ∀ u ∈ hexCodes, PyText.isSpace u = false := by decide
  exact ⟨fun hcomma => absurd (mem_hexdigest hcomma) (by decide),
    fun u hu => hspace u (mem_hexdigest hu)⟩

theorem generate_hexdigest
    (h : generateWebhookSignature hmac secret timestamp body = .ok signature) :
    ∃ key signed, encode? secret = some key ∧ signature = hexdigest (hmac key signed) := by
  obtain ⟨signed, -, h⟩ := except_bind_eq_ok_iff.mp h
  obtain ⟨key, hkey, h⟩ := except_bind_eq_ok_iff.mp h
  cases h
  refine ⟨key, signed, ?_, rfl⟩
  unfold encode at hkey
  split at hkey
  · cases hkey
    assumption
  · cases hkey

/-- What the receiver finds in the header of a sender. -/
theorem senderHeader_eq_ok (h : senderHeader hmac secret time body = .ok header) :
    ∃ timestamp signature, ofInt? time = some timestamp ∧
      generateWebhookSignature hmac secret timestamp body = .ok signature ∧
      element? header "t" = some timestamp ∧ element? header "v1" = some signature := by
  unfold senderHeader at h
  split at h
  case h_1 timestamp htimestamp =>
    obtain ⟨signature, hsignature, h⟩ := except_bind_eq_ok_iff.mp h
    cases h
    obtain ⟨key, signed, -, hhex⟩ := generate_hexdigest hsignature
    have hplain : Plain signature := hhex ▸ plain_hexdigest _
    have helements := headerElements_eq (plain_ofInt? htimestamp) hplain
    refine ⟨timestamp, signature, htimestamp, hsignature, ?_, ?_⟩ <;>
      rw [element?, helements] <;> rfl
  case h_2 => cases h

/-- A sender with a secret that can be encoded builds a header for every time it can write. -/
theorem exists_senderHeader (hsecret : (encode? secret).isSome)
    (hdigits : (Nat.toDigits 10 time.natAbs).length ≤ maxStrDigits) :
    ∃ header, senderHeader hmac secret time body = .ok header := by
  obtain ⟨key, hkey⟩ := Option.isSome_iff_exists.mp hsecret
  have htimestamp : ofInt? time = some ((PyValue.intText time).map Char.toNat) := if_pos hdigits
  have hint : (int? ((PyValue.intText time).map Char.toNat)).isSome := by
    rw [int?_of_ofInt? htimestamp]
    rfl
  obtain ⟨bytes, -, -, hsignature⟩ := generate_of_key hmac hkey hint
  rw [senderHeader, htimestamp]
  dsimp only
  rw [signatureHeader, hsignature body]
  exact ⟨_, rfl⟩

/-- The receiver accepts the header of a sender within the tolerance, and not outside. -/
theorem verify_senderHeader_iff (hdigest : ∀ key signed, hmac key signed ≠ [])
    (hsecret : secret ≠ []) (h : senderHeader hmac secret time body = .ok header) :
    verifyWebhookSignature hmac now secret header body tolerance = .ok true ↔
      (now - time).natAbs ≤ tolerance := by
  obtain ⟨timestamp, signature, htimestamp, hsignature, hfirst, hsecond⟩ := senderHeader_eq_ok h
  have hint := int?_of_ofInt? htimestamp
  rw [verify_eq_true_iff]
  constructor
  · rintro ⟨timestamp', received, hcompared, -⟩
    obtain ⟨time', htime', hcurrent⟩ := hcompared.current
    have heq := hcompared.timestampFound
    rw [hfirst, Option.some.injEq] at heq
    rw [← heq, hint, Option.some.injEq] at htime'
    rwa [htime']
  · intro hcurrent
    obtain ⟨key, signed, -, hhex⟩ := generate_hexdigest hsignature
    have hnonempty : signature ≠ [] := hhex ▸ hexdigest_ne_nil (hdigest key signed)
    exact ⟨timestamp, signature,
      ⟨hsecret, hfirst, hsecond, hnonempty, time, hint, hcurrent⟩, hsignature⟩

/-! ## What has been signed -/

/-- The signed bytes say where the timestamp ends. -/
theorem signedPayload_inj {timestamp' : PyText} {body' : List UInt8}
    (h : (int? timestamp).isSome) (h' : (int? timestamp').isSome)
    (heq : signedPayload timestamp body = signedPayload timestamp' body') :
    timestamp = timestamp' ∧ body = body' := by
  obtain ⟨bytes, hbytes, hdot, hsigned⟩ := signedPayload_of_int? h
  obtain ⟨bytes', hbytes', hdot', hsigned'⟩ := signedPayload_of_int? h'
  rw [hsigned body, hsigned' body', Except.ok.injEq] at heq
  obtain ⟨rfl, hbody⟩ := append_cons_inj hdot hdot' heq
  exact ⟨encode?_inj hbytes hbytes', hbody⟩

/-- With an injective HMAC a signature belongs to one timestamp and one body. -/
theorem generate_inj (hinjective : ∀ key, Function.Injective (hmac key)) {timestamp' : PyText}
    {body' : List UInt8} (h : (int? timestamp).isSome) (h' : (int? timestamp').isSome)
    (hsignature : generateWebhookSignature hmac secret timestamp body = .ok signature)
    (hsignature' : generateWebhookSignature hmac secret timestamp' body' = .ok signature) :
    timestamp' = timestamp ∧ body' = body := by
  obtain ⟨key, -, hkey, -⟩ := generate_hexdigest hsignature
  obtain ⟨bytes, hbytes, hdot, hgenerate⟩ := generate_of_key hmac hkey h
  obtain ⟨bytes', hbytes', hdot', hgenerate'⟩ := generate_of_key hmac hkey h'
  have heq := ((hgenerate' body').symm.trans hsignature').trans
    (hsignature.symm.trans (hgenerate body))
  have hsigned := hinjective key (hexdigest_injective (Except.ok.inj heq))
  obtain ⟨rfl, hbody⟩ := append_cons_inj hdot' hdot hsigned
  exact ⟨encode?_inj hbytes' hbytes, hbody⟩

/-! ## Deliveries -/

def hexHmac (hmac : List UInt8 → List UInt8 → List UInt8) (secret text : String) : String :=
  String.ofList (hexChars (hmac (utf8 secret) (utf8 text)))

theorem ofString_hexHmac (secret text : String) :
    ofString (hexHmac hmac secret text) = hexdigest (hmac (utf8 secret) (utf8 text)) := by
  rw [hexHmac, ofString, String.toList_ofList]
  rfl

/-- The header that a delivery sends is that of its timestamp and body. -/
theorem deliveryHeaders_signature (d : Webhooks.Dispatch) (secret : String) (text : JsonText) :
    ∃ header, signatureHeader hmac (ofString secret) (ofString d.timestamp) (utf8 text.text) =
        .ok header ∧
      (ofString "X-Webhook-Signature", JsonValue.str header) ∈
        Webhooks.deliveryHeaders (hexHmac hmac) d secret text := by
  have hsigned : signedPayload (ofString d.timestamp) (utf8 text.text) =
      .ok (utf8 (d.timestamp ++ "." ++ text.text)) := by
    rw [signedPayload, ← ofString_append, encode_eq_ok (encode?_ofString _)]
    exact congrArg Except.ok (utf8_append _ _).symm
  refine ⟨ofString ("t=" ++ d.timestamp ++ ",v1=" ++
    hexHmac hmac secret (d.timestamp ++ "." ++ text.text)), ?_, ?_⟩
  · rw [signatureHeader, generateWebhookSignature, hsigned, encode_eq_ok (encode?_ofString _),
      ofString_append, ofString_append, ofString_append, ofString_hexHmac]
    rfl
  · simp [Webhooks.deliveryHeaders, Webhooks.generateWebhookSignature, JsonValue.ofStrings]

/-! ## Exactness -/

/-- Signatures are exact: a header that has been built is accepted in time, a header that is
accepted carries the signature of its timestamp and of the body and of nothing else, and no two
timestamps and bodies are signed as the same bytes. -/
structure ExactSignatures (hmac : List UInt8 → List UInt8 → List UInt8) : Prop where
  sent : ∀ secret time body, (encode? secret).isSome →
    (Nat.toDigits 10 (Int.natAbs time)).length ≤ maxStrDigits →
    ∃ header, senderHeader hmac secret time body = .ok header
  accepted : ∀ secret time body header, secret ≠ [] →
    senderHeader hmac secret time body = .ok header → ∀ now tolerance,
    verifyWebhookSignature hmac now secret header body tolerance = .ok true ↔
      (now - time).natAbs ≤ tolerance
  exact : ∀ now secret header body tolerance,
    verifyWebhookSignature hmac now secret header body tolerance = .ok true →
    ∃ timestamp received, element? header "t" = some timestamp ∧
      element? header "v1" = some received ∧ (int? timestamp).isSome ∧
      generateWebhookSignature hmac secret timestamp body = .ok received ∧
      ∀ timestamp' body', (int? timestamp').isSome →
        generateWebhookSignature hmac secret timestamp' body' = .ok received →
        timestamp' = timestamp ∧ body' = body
  apart : ∀ timestamp timestamp' body body', (int? timestamp).isSome →
    (int? timestamp').isSome → signedPayload timestamp body = signedPayload timestamp' body' →
    timestamp = timestamp' ∧ body = body'

theorem exactSignatures (hmac : List UInt8 → List UInt8 → List UInt8)
    (hdigest : ∀ key signed, hmac key signed ≠ [])
    (hinjective : ∀ key, Function.Injective (hmac key)) : ExactSignatures hmac where
  sent secret time body := exists_senderHeader
  accepted secret time body header hsecret h now tolerance :=
    verify_senderHeader_iff hdigest hsecret h
  exact now secret header body tolerance h := by
    obtain ⟨timestamp, received, hcompared, hsignature⟩ := verify_eq_true_iff.mp h
    exact ⟨timestamp, received, hcompared.timestampFound, hcompared.receivedFound, hcompared.int,
      hsignature, fun timestamp' body' h' hsignature' =>
        generate_inj hinjective hcompared.int h' hsignature hsignature'⟩
  apart timestamp timestamp' body body' h h' heq := signedPayload_inj h h' heq

/-- HMAC-SHA256 of one message under one key, and something injective elsewhere. -/
def sampleHmac (key signed : List UInt8) : List UInt8 :=
  if encode? (ofString "whsec") = some key ∧
      encode? (ofString "1700000000.\x7b\x7d") = some signed then
    [125, 68, 88, 125, 221, 186, 244, 199, 247, 15, 239, 32, 244, 140, 213, 148, 131, 79, 254,
      161, 100, 30, 58, 194, 39, 184, 68, 8, 41, 135, 56, 175]
  else 0 :: signed

theorem sampleHmac_ne_nil (key signed : List UInt8) : sampleHmac key signed ≠ [] := by
  unfold sampleHmac
  split_ifs
  · exact List.cons_ne_nil _ _
  · exact List.cons_ne_nil _ _

theorem sampleHmac_injective (key : List UInt8) : Function.Injective (sampleHmac key) := by
  intro signed signed' h
  unfold sampleHmac at h
  split_ifs at h with hsample hsample' hsample'
  · exact Option.some.inj (hsample.2.symm.trans hsample'.2)
  · exact absurd (List.cons.inj h).1 (by decide)
  · exact absurd (List.cons.inj h).1 (by decide)
  · exact (List.cons.inj h).2

theorem exactSignatures_sampleHmac : ExactSignatures sampleHmac ∧
    senderHeader sampleHmac (ofString "whsec") 1700000000 [123, 125] = .ok (ofString
      "t=1700000000,v1=7d44587dddbaf4c7f70fef20f48cd594834ffea1641e3ac227b84408298738af") :=
  ⟨exactSignatures sampleHmac sampleHmac_ne_nil sampleHmac_injective, by rfl⟩

/-! ## When verifying raises -/

theorem returns_of_compared_iff {received : PyText}
    (h : Compared now secret header tolerance timestamp received) :
    (∃ accepted, verifyWebhookSignature hmac now secret header body tolerance = .ok accepted) ↔
      isAscii received = true ∧ (encode? secret).isSome := by
  rw [verify_of_compared h]
  constructor
  · rintro ⟨accepted, haccepted⟩
    obtain ⟨signature, hsignature, hequal⟩ := except_bind_eq_ok_iff.mp haccepted
    obtain ⟨key, -, hkey, -⟩ := generate_hexdigest hsignature
    unfold compareDigest at hequal
    split_ifs at hequal with hascii
    exact ⟨(Bool.and_eq_true_iff.mp hascii).2, by rw [hkey]; rfl⟩
  · rintro ⟨hascii, hsecret⟩
    obtain ⟨key, hkey⟩ := Option.isSome_iff_exists.mp hsecret
    obtain ⟨bytes, -, -, hgenerate⟩ := generate_of_key hmac hkey h.int
    rw [hgenerate body]
    change ∃ accepted, compareDigest _ received = .ok accepted
    rw [compareDigest, isAscii_hexdigest, hascii, if_pos (Bool.and_self true)]
    exact ⟨_, rfl⟩

/-- Verifying returns unless it compares a signature that is not ASCII, or signs with a secret
that cannot be encoded. -/
theorem verify_returns_iff (hmac : List UInt8 → List UInt8 → List UInt8) (now : ℤ)
    (secret header : PyText) (body : List UInt8) (tolerance : ℤ) :
    (∃ accepted, verifyWebhookSignature hmac now secret header body tolerance = .ok accepted) ↔
      ∀ timestamp received, Compared now secret header tolerance timestamp received →
        isAscii received = true ∧ (encode? secret).isSome := by
  constructor
  · exact fun hreturns timestamp received h => (returns_of_compared_iff h).mp hreturns
  · intro hall
    by_cases hcompared : ∃ timestamp received,
        Compared now secret header tolerance timestamp received
    · obtain ⟨timestamp, received, h⟩ := hcompared
      exact (returns_of_compared_iff h).mpr (hall timestamp received h)
    · exact ⟨false, verify_of_not_compared (fun timestamp received h => hcompared ⟨_, _, h⟩)⟩

/-- A header in time whose signature has a letter with an accent. -/
theorem accented_signature_raises :
    verifyWebhookSignature sampleHmac 1700000000 (ofString "whsec")
        (ofString "t=1700000000,v1=caf\u00e9") [123, 125] 300 = .error .typeError ∧
      ¬ ∃ accepted, verifyWebhookSignature sampleHmac 1700000000 (ofString "whsec")
        (ofString "t=1700000000,v1=caf\u00e9") [123, 125] 300 = .ok accepted := by
  have hraises : verifyWebhookSignature sampleHmac 1700000000 (ofString "whsec")
      (ofString "t=1700000000,v1=caf\u00e9") [123, 125] 300 = .error .typeError := by rfl
  refine ⟨hraises, ?_⟩
  rintro ⟨accepted, h⟩
  rw [hraises] at h
  cases h

end FastapiTemplate.Signatures
