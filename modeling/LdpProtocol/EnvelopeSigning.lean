import LdpProtocol.MessageTypes

/-!
# Rust envelope signing

`signEnvelope` feeds a fixed sequence of byte strings to HMAC-SHA256 and writes
the tag in lower-case hexadecimal. HMAC-SHA256 itself is a parameter: a function
from key and message bytes to tag bytes, of which nothing is assumed here.
-/
namespace LdpProtocol.EnvelopeSigning
open JsonValues PayloadModes MessageTypes

abbrev Hmac := ByteArray → ByteArray → ByteArray

/-- A MAC known at given keys and messages only, for runs on fixed inputs. -/
def tabulated (entries : List (String × String × List UInt8)) : Hmac := fun key message =>
  match entries.find? fun e => decide (e.1.toUTF8 = key) && decide (e.2.1.toUTF8 = message) with
  | some e => ⟨e.2.2.toArray⟩
  | none => ByteArray.empty

/-- HMAC-SHA256 at the signing input of the submissions used as examples. -/
def submissionMac : Hmac := tabulated
  [("secret", "ldp:a|ldp:b|s1|t0|m1|t1|echo|TASK_SUBMIT",
    [108, 237, 148, 127, 167, 8, 0, 103, 69, 43, 166, 199, 83, 91, 198, 28, 215, 253, 185, 247,
      224, 209, 100, 226, 159, 96, 94, 225, 70, 7, 139, 158])]

/-- Feeding the updates one by one is feeding their concatenation. -/
def macInput (updates : List String) : ByteArray :=
  updates.foldl (fun fed s => fed ++ s.toUTF8) ByteArray.empty

def hexDigit (n : ℕ) : Char := "0123456789abcdef".toList.getD n '0'

def hexEncode (bytes : ByteArray) : String :=
  String.ofList (bytes.data.toList.flatMap fun b =>
    [hexDigit (b.toNat / 16), hexDigit (b.toNat % 16)])

theorem hexDigit_inj {a b : ℕ} (ha : a < 16) (hb : b < 16) (h : hexDigit a = hexDigit b) :
    a = b := by
  have hall : ∀ a < 16, ∀ b < 16, hexDigit a = hexDigit b → a = b := by decide
  exact hall a ha b hb h

private theorem hexDigits_inj (xs ys : List UInt8)
    (h : (xs.flatMap fun b => [hexDigit (b.toNat / 16), hexDigit (b.toNat % 16)]) =
      ys.flatMap fun b => [hexDigit (b.toNat / 16), hexDigit (b.toNat % 16)]) : xs = ys := by
  induction xs generalizing ys with
  | nil =>
      cases ys with
      | nil => rfl
      | cons y ys => simp at h
  | cons x xs ih =>
      cases ys with
      | nil => simp at h
      | cons y ys =>
          simp only [List.flatMap_cons, List.cons_append, List.nil_append,
            List.cons.injEq] at h
          have hx := x.toNat_lt
          have hy := y.toNat_lt
          have hhigh := hexDigit_inj (by omega) (by omega) h.1
          have hlow := hexDigit_inj (by omega) (by omega) h.2.1
          have hxy : x = y := by
            apply UInt8.toNat_inj.mp
            omega
          rw [hxy, ih ys h.2.2]

theorem hexEncode_inj {xs ys : ByteArray} (h : hexEncode xs = hexEncode ys) : xs = ys := by
  apply ByteArray.ext
  apply Array.toList_inj.mp
  exact hexDigits_inj _ _ (String.ofList_injective h)

/-- The identifying body fields that are signed, and the body type. -/
def signedBody : LdpMessageBody → List String × String
  | .hello delegateId _ => ([delegateId], "HELLO")
  | .capabilityManifest _ => ([], "CAPABILITY_MANIFEST")
  | .sessionPropose _ => ([], "SESSION_PROPOSE")
  | .sessionAccept sessionId _ => ([sessionId], "SESSION_ACCEPT")
  | .sessionReject reason _ => ([reason], "SESSION_REJECT")
  | .taskSubmit taskId skill _ _ => ([taskId, "|", skill], "TASK_SUBMIT")
  | .taskUpdate taskId _ _ => ([taskId], "TASK_UPDATE")
  | .taskResult taskId _ _ => ([taskId], "TASK_RESULT")
  | .taskFailed taskId _ => ([taskId], "TASK_FAILED")
  | .taskCancel taskId => ([taskId], "TASK_CANCEL")
  | .attestation _ _ => ([], "ATTESTATION")
  | .sessionClose _ => ([], "SESSION_CLOSE")

/-- What `sign_envelope` feeds to the MAC, in order. The nonce and its separator
are fed only when there is a nonce. -/
def signingUpdates (envelope : LdpEnvelope) : List String :=
  [envelope.from_, "|", envelope.to_, "|", envelope.sessionId, "|", envelope.timestamp, "|",
    envelope.messageId] ++
  (match envelope.nonce with
    | some nonce => ["|", nonce]
    | none => []) ++
  ["|"] ++ (signedBody envelope.body).1 ++ ["|", (signedBody envelope.body).2]

/-- Sign an envelope and return the hex-encoded HMAC-SHA256 signature. -/
def signEnvelope (hmac : Hmac) (envelope : LdpEnvelope) (secret : String) : String :=
  hexEncode (hmac secret.toUTF8 (macInput (signingUpdates envelope)))

/-- Verify an envelope's signature, first by length and then byte by byte. -/
def verifyEnvelope (hmac : Hmac) (envelope : LdpEnvelope) (secret signature : String) : Bool :=
  let expected := signEnvelope hmac envelope secret
  if expected.toUTF8.size ≠ signature.toUTF8.size then false
  else decide (expected.toUTF8 = signature.toUTF8)

def applySignature (hmac : Hmac) (envelope : LdpEnvelope) (secret : String) : LdpEnvelope :=
  { envelope with
    signature := some (signEnvelope hmac envelope secret)
    signatureAlgorithm := some "hmac-sha256" }

/-- "Sign if configured", as every place that builds an envelope does it. -/
def signIfConfigured (hmac : Hmac) (signingSecret : Option String) (envelope : LdpEnvelope) :
    LdpEnvelope :=
  match signingSecret with
  | some secret => applySignature hmac envelope secret
  | none => envelope

@[simp] theorem signIfConfigured_body (hmac : Hmac) (signingSecret : Option String)
    (envelope : LdpEnvelope) :
    (signIfConfigured hmac signingSecret envelope).body = envelope.body := by
  cases signingSecret <;> rfl

@[simp] theorem signIfConfigured_provenance (hmac : Hmac) (signingSecret : Option String)
    (envelope : LdpEnvelope) :
    (signIfConfigured hmac signingSecret envelope).provenance = envelope.provenance := by
  cases signingSecret <;> rfl

@[simp] theorem signIfConfigured_sessionId (hmac : Hmac) (signingSecret : Option String)
    (envelope : LdpEnvelope) :
    (signIfConfigured hmac signingSecret envelope).sessionId = envelope.sessionId := by
  cases signingSecret <;> rfl

@[simp] theorem signIfConfigured_from (hmac : Hmac) (signingSecret : Option String)
    (envelope : LdpEnvelope) :
    (signIfConfigured hmac signingSecret envelope).from_ = envelope.from_ := by
  cases signingSecret <;> rfl

@[simp] theorem signIfConfigured_payloadMode (hmac : Hmac) (signingSecret : Option String)
    (envelope : LdpEnvelope) :
    (signIfConfigured hmac signingSecret envelope).payloadMode = envelope.payloadMode := by
  cases signingSecret <;> rfl

theorem verifyEnvelope_iff (hmac : Hmac) (envelope : LdpEnvelope) (secret signature : String) :
    verifyEnvelope hmac envelope secret signature = true ↔
      signature = signEnvelope hmac envelope secret := by
  unfold verifyEnvelope
  constructor
  · intro h
    dsimp only at h
    split_ifs at h
    exact (String.toByteArray_inj.mp (of_decide_eq_true h)).symm
  · rintro rfl
    simp

/-- The envelope carries a signature that verifies under the secret. -/
def CarriesValidSignature (hmac : Hmac) (secret : String) (envelope : LdpEnvelope) : Prop :=
  ∃ sig, envelope.signature = some sig ∧ verifyEnvelope hmac envelope secret sig = true

theorem carriesValidSignature_applySignature (hmac : Hmac) (envelope : LdpEnvelope)
    (secret : String) :
    CarriesValidSignature hmac secret (applySignature hmac envelope secret) :=
  ⟨_, rfl, (verifyEnvelope_iff ..).mpr rfl⟩

private theorem foldl_append_toUTF8 (updates : List String) (fed : ByteArray) :
    updates.foldl (fun fed s => fed ++ s.toUTF8) fed =
      fed ++ (String.join updates).toByteArray := by
  induction updates generalizing fed with
  | nil => simp [String.join]
  | cons s updates ih =>
      rw [List.foldl_cons, ih, String.join_cons, String.toByteArray_append,
        ByteArray.append_assoc]
      rfl

/-- Equal bytes are equal texts, since UTF-8 is injective. -/
theorem macInput_eq_iff (xs ys : List String) :
    macInput xs = macInput ys ↔ String.join xs = String.join ys := by
  unfold macInput
  rw [foldl_append_toUTF8, foldl_append_toUTF8, ByteArray.empty_append, ByteArray.empty_append,
    String.toByteArray_inj]

end LdpProtocol.EnvelopeSigning
