import LdpProtocol.DelimitedFields
import LdpProtocol.EnvelopeSigning

/-!
# What the signed bytes determine

The text fed to the MAC is the list of signed fields joined by a bar. The last
field is the body type, so it can always be read off; everything else can be
read back exactly when no nonce is present and no signed string contains a bar.
With a nonce, or with a bar in some string, a second envelope with different
fields has the same text.
-/
namespace LdpProtocol.SigningInput
open JsonValues PayloadModes MessageTypes EnvelopeSigning DelimitedFields

/-- The body part between the last header field and the body type. -/
def bodyFields : LdpMessageBody → List String
  | .hello delegateId _ => [delegateId]
  | .sessionAccept sessionId _ => [sessionId]
  | .sessionReject reason _ => [reason]
  | .taskSubmit taskId skill _ _ => [taskId, skill]
  | .taskUpdate taskId _ _ => [taskId]
  | .taskResult taskId _ _ => [taskId]
  | .taskFailed taskId _ => [taskId]
  | .taskCancel taskId => [taskId]
  | .capabilityManifest _ | .sessionPropose _ | .attestation _ _ | .sessionClose _ => [""]

def signedFields (e : LdpEnvelope) : List String :=
  [e.from_, e.to_, e.sessionId, e.timestamp, e.messageId] ++ e.nonce.toList ++
    bodyFields e.body ++ [e.body.tag]

/-- The free-form strings that are signed besides the nonce. -/
def signedStrings (e : LdpEnvelope) : List String :=
  [e.from_, e.to_, e.sessionId, e.timestamp, e.messageId] ++ bodyFields e.body

def BarFree (strings : List String) : Prop := ∀ s ∈ strings, '|' ∉ s.toList

instance (strings : List String) : Decidable (BarFree strings) :=
  inferInstanceAs (Decidable (∀ s ∈ strings, '|' ∉ s.toList))

/-- The bytes `sign_envelope` feeds to the MAC. -/
def canon (e : LdpEnvelope) : ByteArray := macInput (signingUpdates e)

/-- The covered part of two envelopes agrees: header, nonce, body type and the
signed body fields. -/
structure SameSigned (e₁ e₂ : LdpEnvelope) : Prop where
  from_ : e₁.from_ = e₂.from_
  to_ : e₁.to_ = e₂.to_
  sessionId : e₁.sessionId = e₂.sessionId
  timestamp : e₁.timestamp = e₂.timestamp
  messageId : e₁.messageId = e₂.messageId
  nonce : e₁.nonce = e₂.nonce
  body : signedBody e₁.body = signedBody e₂.body

theorem signedBody_of_bodyFields {b c : LdpMessageBody} (ht : b.tag = c.tag)
    (hf : bodyFields b = bodyFields c) : signedBody b = signedBody c := by
  cases b <;> cases c <;> simp_all [signedBody, bodyFields, LdpMessageBody.tag]

theorem bodyFields_length_of_tag {b c : LdpMessageBody} (ht : b.tag = c.tag) :
    (bodyFields b).length = (bodyFields c).length := by
  cases b <;> cases c <;> simp_all [bodyFields, LdpMessageBody.tag]

theorem tag_bar_free (b : LdpMessageBody) : '|' ∉ b.tag.toList := by
  cases b <;> simp [LdpMessageBody.tag]

theorem join_signingUpdates (e : LdpEnvelope) :
    String.join (signingUpdates e) = "|".intercalate (signedFields e) := by
  unfold signingUpdates signedFields
  cases e.nonce <;> cases e.body <;>
    simp [signedBody, bodyFields, LdpMessageBody.tag, String.intercalate_cons_cons,
      String.append_assoc]

theorem canon_eq_iff (e₁ e₂ : LdpEnvelope) :
    canon e₁ = canon e₂ ↔ joined '|' ((signedFields e₁).map String.toList) =
      joined '|' ((signedFields e₂).map String.toList) := by
  unfold canon
  rw [macInput_eq_iff, join_signingUpdates, join_signingUpdates, ← String.toList_inj,
    String.toList_intercalate, String.toList_intercalate]
  rfl

theorem signedFields_ne_nil (e : LdpEnvelope) : signedFields e ≠ [] := by
  simp [signedFields]

theorem clean_map_toList {xs : List String} :
    Clean '|' (xs.map String.toList) ↔ BarFree xs := by
  simp [Clean, BarFree]

/-- The tag is what stands behind the last bar. -/
theorem joined_signedFields (e : LdpEnvelope) :
    ∃ before, joined '|' ((signedFields e).map String.toList) =
      before ++ '|' :: e.body.tag.toList := by
  unfold signedFields
  rw [List.map_append, List.map_singleton, joined_append_last _ (by simp)]
  exact ⟨_, rfl⟩

theorem tag_eq_of_canon {e₁ e₂ : LdpEnvelope} (h : canon e₁ = canon e₂) :
    e₁.body.tag = e₂.body.tag := by
  obtain ⟨before₁, h₁⟩ := joined_signedFields e₁
  obtain ⟨before₂, h₂⟩ := joined_signedFields e₂
  rw [canon_eq_iff, h₁, h₂] at h
  exact String.toList_inj.mp (last_unique (tag_bar_free _) (tag_bar_free _) h)

theorem sameSigned_of_signedFields {e₁ e₂ : LdpEnvelope}
    (ht : e₁.body.tag = e₂.body.tag) (h : signedFields e₁ = signedFields e₂) :
    SameSigned e₁ e₂ := by
  have hlen := congrArg List.length h
  have hk := bodyFields_length_of_tag ht
  unfold signedFields at h hlen
  rw [ht] at h
  have hb := List.append_cancel_right h
  cases h₁ : e₁.nonce <;> cases h₂ : e₂.nonce <;> rw [h₁, h₂] at hb hlen
  · simp only [Option.toList_none, List.append_nil, List.cons_append, List.nil_append,
      List.cons.injEq] at hb
    obtain ⟨hfrom, hto, hsid, hts, hmid, hfields⟩ := hb
    exact ⟨hfrom, hto, hsid, hts, hmid, by rw [h₁, h₂], signedBody_of_bodyFields ht hfields⟩
  · simp only [Option.toList, List.length_append, List.length_cons, List.length_nil] at hlen
    omega
  · simp only [Option.toList, List.length_append, List.length_cons, List.length_nil] at hlen
    omega
  · simp only [Option.toList_some, List.cons_append, List.nil_append,
      List.cons.injEq] at hb
    obtain ⟨hfrom, hto, hsid, hts, hmid, hnonce, hfields⟩ := hb
    exact ⟨hfrom, hto, hsid, hts, hmid, by rw [h₁, h₂, hnonce],
      signedBody_of_bodyFields ht hfields⟩

theorem signedFields_of_joined {e₁ e₂ : LdpEnvelope}
    (h : (signedFields e₁).map String.toList = (signedFields e₂).map String.toList) :
    signedFields e₁ = signedFields e₂ :=
  (List.map_inj_right fun _ _ => String.toList_inj.mp).mp h

/-- The fields of an envelope without nonce and without bars are the only
reading of its signed text. -/
theorem sameSigned_of_canon {e₁ e₂ : LdpEnvelope} (hn : e₁.nonce = none)
    (hb : BarFree (signedStrings e₁)) (h : canon e₁ = canon e₂) : SameSigned e₁ e₂ := by
  have ht := tag_eq_of_canon h
  have hk := bodyFields_length_of_tag ht
  have hclean : BarFree (signedFields e₁) := by
    intro s hs
    simp only [signedFields, hn, Option.toList_none, List.append_nil, List.mem_append,
      List.mem_singleton] at hs
    rcases hs with hs | rfl
    · exact hb s (List.mem_append.mpr hs)
    · exact tag_bar_free _
  apply sameSigned_of_signedFields ht
  apply signedFields_of_joined
  apply joined_unique (clean_map_toList.mpr hclean) (by simp [signedFields_ne_nil])
    (by simp [signedFields_ne_nil]) _ ((canon_eq_iff e₁ e₂).mp h)
  simp only [signedFields, hn, Option.toList_none, List.length_map, List.length_append,
    List.length_cons, List.length_nil]
  omega

/-- Two envelopes whose signed strings and nonces have no bar can be told apart
by their signed text. -/
theorem sameSigned_of_barFree {e₁ e₂ : LdpEnvelope}
    (h₁ : BarFree (signedStrings e₁ ++ e₁.nonce.toList))
    (h₂ : BarFree (signedStrings e₂ ++ e₂.nonce.toList))
    (h : canon e₁ = canon e₂) : SameSigned e₁ e₂ := by
  have clean : ∀ e : LdpEnvelope, BarFree (signedStrings e ++ e.nonce.toList) →
      BarFree (signedFields e) := by
    intro e he s hs
    simp only [signedFields, List.mem_append, List.mem_singleton] at hs
    rcases hs with ((hs | hs) | hs) | rfl
    · exact he s (List.mem_append_left _ (List.mem_append_left _ hs))
    · exact he s (List.mem_append_right _ hs)
    · exact he s (List.mem_append_left _ (List.mem_append_right _ hs))
    · exact tag_bar_free _
  apply sameSigned_of_signedFields (tag_eq_of_canon h)
  apply signedFields_of_joined
  exact joined_injective (clean_map_toList.mpr (clean e₁ h₁))
    (clean_map_toList.mpr (clean e₂ h₂)) (by simp [signedFields_ne_nil])
    (by simp [signedFields_ne_nil]) ((canon_eq_iff e₁ e₂).mp h)

theorem exists_bar {s : String} (h : '|' ∈ s.toList) : ∃ a b, s = a ++ "|" ++ b := by
  obtain ⟨l, r, hs⟩ := List.append_of_mem h
  refine ⟨String.ofList l, String.ofList r, String.toList_inj.mp ?_⟩
  rw [hs, String.toList_append, String.toList_append]
  simp

theorem bar_append_ne (a b : String) : a ++ "|" ++ b ≠ a := by
  intro h
  have hlen := congrArg String.length h
  simp only [String.length_append] at hlen
  have : "|".length = 1 := rfl
  omega

theorem toList_bar (a b : String) : (a ++ "|" ++ b).toList = a.toList ++ '|' :: b.toList := by
  simp

theorem canon_merge {e₁ e₂ : LdpEnvelope} (before after : List String) (a b : String)
    (h₁ : signedFields e₁ = before ++ a :: b :: after)
    (h₂ : signedFields e₂ = before ++ (a ++ "|" ++ b) :: after) : canon e₁ = canon e₂ := by
  rw [canon_eq_iff, h₁, h₂]
  simp only [List.map_append, List.map_cons, toList_bar]
  exact (joined_merge ..).symm

theorem canon_shift {e₁ e₂ : LdpEnvelope} (before after : List String) (p a b : String)
    (h₁ : signedFields e₁ = before ++ p :: (a ++ "|" ++ b) :: after)
    (h₂ : signedFields e₂ = before ++ (p ++ "|" ++ a) :: b :: after) :
    canon e₁ = canon e₂ := by
  rw [canon_eq_iff, h₁, h₂]
  simp only [List.map_append, List.map_cons, toList_bar]
  exact joined_shift ..

/-- The body with its first signed field replaced. -/
def withFirstField (s : String) : LdpMessageBody → LdpMessageBody
  | .hello _ supportedModes => .hello s supportedModes
  | .sessionAccept _ negotiatedMode => .sessionAccept s negotiatedMode
  | .sessionReject _ error => .sessionReject s error
  | .taskSubmit _ skill input contract => .taskSubmit s skill input contract
  | .taskUpdate _ progress message => .taskUpdate s progress message
  | .taskResult _ output provenance => .taskResult s output provenance
  | .taskFailed _ error => .taskFailed s error
  | .taskCancel _ => .taskCancel s
  | body => body

theorem withFirstField_tag (s : String) (b : LdpMessageBody) :
    (withFirstField s b).tag = b.tag := by
  cases b <;> rfl

theorem withFirstField_fields {x : String} {rest : List String} {b : LdpMessageBody}
    (h : bodyFields b = x :: rest) (hx : x ≠ "") (s : String) :
    bodyFields (withFirstField s b) = s :: rest := by
  cases b <;> simp_all [bodyFields, withFirstField]

/-- A nonce can be read as part of the message id. -/
theorem ambiguous_of_nonce {e₁ : LdpEnvelope} {nonce : String} (hn : e₁.nonce = some nonce) :
    ∃ e₂, canon e₁ = canon e₂ ∧ ¬ SameSigned e₁ e₂ := by
  refine ⟨{ e₁ with messageId := e₁.messageId ++ "|" ++ nonce, nonce := none }, ?_, ?_⟩
  · apply canon_merge [e₁.from_, e₁.to_, e₁.sessionId, e₁.timestamp]
      (bodyFields e₁.body ++ [e₁.body.tag]) e₁.messageId nonce
    · simp [signedFields, hn]
    · simp [signedFields]
  · intro h
    have hnone := h.nonce
    rw [hn] at hnone
    exact Option.some_ne_none _ hnone

section Bar
variable {e₁ : LdpEnvelope} (hn : e₁.nonce = none)
include hn

theorem ambiguous_of_header {s : String}
    (hs : s ∈ [e₁.from_, e₁.to_, e₁.sessionId, e₁.timestamp, e₁.messageId])
    (hbar : '|' ∈ s.toList) : ∃ e₂, canon e₁ = canon e₂ ∧ ¬ SameSigned e₁ e₂ := by
  obtain ⟨a, b, hab⟩ := exists_bar hbar
  simp only [List.mem_cons, List.not_mem_nil, or_false] at hs
  rcases hs with h | h | h | h | h <;> rw [hab] at h
  · refine ⟨{ e₁ with from_ := a, to_ := b ++ "|" ++ e₁.to_ }, ?_, ?_⟩
    · apply Eq.symm
      apply canon_shift [] ([e₁.sessionId, e₁.timestamp, e₁.messageId] ++
        bodyFields e₁.body ++ [e₁.body.tag]) a b e₁.to_ <;> simp [signedFields, hn, ← h]
    · intro hsame
      exact bar_append_ne a b (h.trans hsame.from_)
  · refine ⟨{ e₁ with from_ := e₁.from_ ++ "|" ++ a, to_ := b }, ?_, ?_⟩
    · apply canon_shift [] ([e₁.sessionId, e₁.timestamp, e₁.messageId] ++
        bodyFields e₁.body ++ [e₁.body.tag]) e₁.from_ a b <;> simp [signedFields, hn, ← h]
    · intro hsame
      exact bar_append_ne e₁.from_ a hsame.from_.symm
  · refine ⟨{ e₁ with to_ := e₁.to_ ++ "|" ++ a, sessionId := b }, ?_, ?_⟩
    · apply canon_shift [e₁.from_] ([e₁.timestamp, e₁.messageId] ++
        bodyFields e₁.body ++ [e₁.body.tag]) e₁.to_ a b <;> simp [signedFields, hn, ← h]
    · intro hsame
      exact bar_append_ne e₁.to_ a hsame.to_.symm
  · refine ⟨{ e₁ with sessionId := e₁.sessionId ++ "|" ++ a, timestamp := b }, ?_, ?_⟩
    · apply canon_shift [e₁.from_, e₁.to_] ([e₁.messageId] ++
        bodyFields e₁.body ++ [e₁.body.tag]) e₁.sessionId a b <;> simp [signedFields, hn, ← h]
    · intro hsame
      exact bar_append_ne e₁.sessionId a hsame.sessionId.symm
  · refine ⟨{ e₁ with timestamp := e₁.timestamp ++ "|" ++ a, messageId := b }, ?_, ?_⟩
    · apply canon_shift [e₁.from_, e₁.to_, e₁.sessionId]
        (bodyFields e₁.body ++ [e₁.body.tag]) e₁.timestamp a b <;> simp [signedFields, hn, ← h]
    · intro hsame
      exact bar_append_ne e₁.timestamp a hsame.timestamp.symm

/-- A bar in the first body field lets its head move into the message id. -/
theorem ambiguous_of_firstField {x : String} {rest : List String}
    (hx : bodyFields e₁.body = x :: rest) (hbar : '|' ∈ x.toList) :
    ∃ e₂, canon e₁ = canon e₂ ∧ ¬ SameSigned e₁ e₂ := by
  obtain ⟨a, b, hab⟩ := exists_bar hbar
  have hne : x ≠ "" := by
    rintro rfl
    simp at hbar
  refine ⟨{ e₁ with messageId := e₁.messageId ++ "|" ++ a, body := withFirstField b e₁.body },
    ?_, ?_⟩
  · apply canon_shift [e₁.from_, e₁.to_, e₁.sessionId, e₁.timestamp]
      (rest ++ [e₁.body.tag]) e₁.messageId a b
    · simp [signedFields, hn, hx, hab]
    · simp [signedFields, hn, withFirstField_fields hx hne, withFirstField_tag]
  · intro hsame
    exact bar_append_ne e₁.messageId a hsame.messageId.symm

/-- A bar in the skill of a submission lets its head move into the task id. -/
theorem ambiguous_of_skill {taskId skill : String} {input : Value}
    {contract : Option DelegationContract}
    (hbody : e₁.body = .taskSubmit taskId skill input contract)
    (hbar : '|' ∈ skill.toList) : ∃ e₂, canon e₁ = canon e₂ ∧ ¬ SameSigned e₁ e₂ := by
  obtain ⟨a, b, rfl⟩ := exists_bar hbar
  refine ⟨{ e₁ with body := .taskSubmit (taskId ++ "|" ++ a) b input contract }, ?_, ?_⟩
  · apply canon_shift [e₁.from_, e₁.to_, e₁.sessionId, e₁.timestamp, e₁.messageId]
      ["TASK_SUBMIT"] taskId a b <;> simp [signedFields, hn, hbody, bodyFields, LdpMessageBody.tag]
  · intro hsame
    have hb := hsame.body
    rw [hbody] at hb
    simp only [signedBody, Prod.mk.injEq, List.cons.injEq, and_true] at hb
    exact bar_append_ne taskId a hb.1.symm

theorem ambiguous_of_bar (hbar : ¬ BarFree (signedStrings e₁)) :
    ∃ e₂, canon e₁ = canon e₂ ∧ ¬ SameSigned e₁ e₂ := by
  unfold BarFree at hbar
  push Not at hbar
  obtain ⟨s, hs, hmem⟩ := hbar
  unfold signedStrings at hs
  rcases List.mem_append.mp hs with hs | hs
  · exact ambiguous_of_header hn hs hmem
  · cases hbody : e₁.body with
    | taskSubmit taskId skill input contract =>
        rw [hbody] at hs
        simp only [bodyFields, List.mem_cons, List.not_mem_nil, or_false] at hs
        rcases hs with rfl | rfl
        · exact ambiguous_of_firstField hn (by rw [hbody]; rfl) hmem
        · exact ambiguous_of_skill hn hbody hmem
    | _ =>
        rw [hbody] at hs
        simp only [bodyFields, List.mem_singleton] at hs
        subst hs
        exact ambiguous_of_firstField hn (by rw [hbody]; rfl) hmem

end Bar

/-- The signed bytes of an envelope determine its signed part exactly when it
has no nonce and no bar in its signed strings. -/
theorem canon_determines_iff (e₁ : LdpEnvelope) :
    (∀ e₂, canon e₁ = canon e₂ → SameSigned e₁ e₂) ↔
      e₁.nonce = none ∧ BarFree (signedStrings e₁) := by
  constructor
  · intro h
    have hn : e₁.nonce = none := by
      cases hc : e₁.nonce with
      | none => rfl
      | some nonce =>
          obtain ⟨e₂, heq, hne⟩ := ambiguous_of_nonce hc
          exact (hne (h e₂ heq)).elim
    refine ⟨hn, ?_⟩
    by_contra hbar
    obtain ⟨e₂, heq, hne⟩ := ambiguous_of_bar hn hbar
    exact hne (h e₂ heq)
  · intro h e₂ heq
    exact sameSigned_of_canon h.1 h.2 heq

/-- A bar moves between the sender and the recipient. -/
theorem canon_not_injective :
    canon (LdpEnvelope.new "m1" "t0" "s1" "acme|sales" "hub" (.taskCancel "t1") .text) =
      canon (LdpEnvelope.new "m1" "t0" "s1" "acme" "sales|hub" (.taskCancel "t1") .text) ∧
    ¬ SameSigned (LdpEnvelope.new "m1" "t0" "s1" "acme|sales" "hub" (.taskCancel "t1") .text)
      (LdpEnvelope.new "m1" "t0" "s1" "acme" "sales|hub" (.taskCancel "t1") .text) := by
  constructor
  · decide
  · intro h
    have hfrom := h.from_
    exact absurd hfrom (by decide)

end LdpProtocol.SigningInput
