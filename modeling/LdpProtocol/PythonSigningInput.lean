import LdpProtocol.SigningAgreement

/-!
# What the bytes signed in Python determine

In Python the body type is any string and the body fields may be missing. A missing
field feeds the bytes of an empty one, and a type with a bar can be read as a shorter
one behind a field, or behind a longer message id. The bytes determine the rest of the
envelope only where neither can happen.
-/
namespace LdpProtocol.PythonSigningInput
open PythonMessages PythonSigning DelimitedFields
open EnvelopeSigning (macInput_eq_iff)
open SigningAgreement (pythonCanon join_guarded)
open SigningInput (BarFree clean_map_toList toList_bar bar_append_ne)

/-- The body types some of whose fields are signed. -/
def fieldTypes : List String :=
  ["HELLO", "SESSION_ACCEPT", "SESSION_REJECT", "TASK_SUBMIT", "TASK_UPDATE", "TASK_RESULT",
    "TASK_FAILED", "TASK_CANCEL"]

/-- The signed body fields. -/
def bodyFields (body : LdpMessageBody) : List (Option String) :=
  if body.type = "HELLO" then [body.delegateId]
  else if body.type = "SESSION_ACCEPT" then [body.sessionId]
  else if body.type = "SESSION_REJECT" then [body.reason]
  else if body.type = "TASK_SUBMIT" then [body.taskId, body.skill]
  else if body.type ∈ ["TASK_UPDATE", "TASK_RESULT", "TASK_FAILED", "TASK_CANCEL"] then
    [body.taskId]
  else []

/-- What stands for the body fields between two bars. -/
def segments : List (Option String) → List String
  | [] => [""]
  | field :: fields => (field :: fields).map (·.getD "")

def headers (p : LdpEnvelope) : List String :=
  [p.from_, p.to_, p.sessionId, p.timestamp, p.messageId]

def signedFields (p : LdpEnvelope) : List String :=
  headers p ++ p.nonce.toList ++ segments (bodyFields p.body) ++ [p.body.type]

/-- The covered part of two envelopes agrees: header, nonce, body type and the signed
body fields. -/
structure SameSigned (p₁ p₂ : LdpEnvelope) : Prop where
  headers : headers p₁ = headers p₂
  nonce : p₁.nonce = p₂.nonce
  type : p₁.body.type = p₂.body.type
  fields : bodyFields p₁.body = bodyFields p₂.body

/-- There is no nonce and no bar, every signed body field is there and not empty, and no
part of the type reads as a body field or as what precedes an empty one. -/
structure Determined (p : LdpEnvelope) : Prop where
  nonce : p.nonce = none
  barFree : BarFree (headers p ++ segments (bodyFields p.body))
  filled : ∀ field ∈ bodyFields p.body, truthy field = true
  type : ∀ a b, p.body.type = a ++ "|" ++ b → b ∉ fieldTypes ∧ a ≠ "" ∧ ∀ c, a ≠ c ++ "|"

theorem bodyFields_eq_nil {body : LdpMessageBody} (h : body.type ∉ fieldTypes) :
    bodyFields body = [] := by
  simp only [fieldTypes, List.mem_cons, List.not_mem_nil, or_false, not_or] at h
  simp [bodyFields, h]

theorem fieldTypes_barFree {type : String} (h : type ∈ fieldTypes) : '|' ∉ type.toList := by
  have hall : ∀ type ∈ fieldTypes, '|' ∉ type.toList := by decide
  exact hall type h

theorem bodyFields_length_of_type {b c : LdpMessageBody} (h : b.type = c.type) :
    (bodyFields b).length = (bodyFields c).length := by
  unfold bodyFields
  rw [h]
  split_ifs <;> rfl

theorem bodyFields_length {b : LdpMessageBody} (h : b.type ∈ fieldTypes)
    (hsubmit : b.type ≠ "TASK_SUBMIT") : (bodyFields b).length = 1 := by
  simp only [fieldTypes, List.mem_cons, List.not_mem_nil, or_false, hsubmit, false_or] at h
  unfold bodyFields
  rcases h with h | h | h | h | h | h | h <;> simp [h]

/-- Any fields can be given to a body of the type, if they are as many as it has. -/
theorem exists_body (b : LdpMessageBody) (fields : List (Option String))
    (h : fields.length = (bodyFields b).length) :
    ∃ c : LdpMessageBody, c.type = b.type ∧ bodyFields c = fields := by
  let first := fields.headD none
  refine ⟨
    { type := b.type, delegateId := first, sessionId := first, reason := first,
      taskId := first, skill := fields.tail.headD none }, rfl, ?_⟩
  unfold bodyFields at *
  dsimp only
  rcases fields with _ | ⟨x, _ | ⟨y, _ | ⟨z, fields⟩⟩⟩ <;> split_ifs at h ⊢ <;>
    first | rfl | simp at h

theorem exists_envelope (p : LdpEnvelope) (body : LdpMessageBody) (fields : List (List Char))
    (h : fields.length = 5) : ∃ q : LdpEnvelope, (headers q).map String.toList = fields ∧
      q.nonce = p.nonce ∧ q.body = body := by
  match fields, h with
  | [from_, to_, sessionId, timestamp, messageId], _ =>
      exact ⟨
        { p with
          from_ := String.ofList from_, to_ := String.ofList to_
          sessionId := String.ofList sessionId, timestamp := String.ofList timestamp
          messageId := String.ofList messageId, body := body }, by simp [headers], rfl, rfl⟩

theorem segments_length_of_type {b c : LdpMessageBody} (h : b.type = c.type) :
    (segments (bodyFields b)).length = (segments (bodyFields c)).length := by
  have hlen := bodyFields_length_of_type h
  cases hb : bodyFields b <;> cases hc : bodyFields c <;> rw [hb, hc] at hlen <;>
    simp_all [segments]

theorem segments_ne_nil (fields : List (Option String)) : segments fields ≠ [] := by
  cases fields <;> simp [segments]

theorem join_of_truthy {field : Option String} (h : truthy field = true) :
    String.join field.toList = field.getD "" := by
  rw [← join_guarded, guarded, if_pos h]

theorem getD_of_not_truthy {field : Option String} (h : truthy field = false) :
    field.getD "" = "" := by
  cases field <;> simp_all [truthy]

theorem join_bodyUpdates (body : LdpMessageBody) :
    String.join (bodyUpdates body) = "|".intercalate (segments (bodyFields body)) := by
  unfold bodyUpdates bodyFields
  split_ifs <;> simp_all [segments, String.intercalate_cons_cons, join_guarded, join_of_truthy,
    getD_of_not_truthy, String.append_assoc]

theorem join_signingUpdates (p : LdpEnvelope) :
    String.join (signingUpdates p) = "|".intercalate (signedFields p) := by
  have hne := segments_ne_nil (bodyFields p.body)
  have hjoin : "|".intercalate (segments (bodyFields p.body) ++ [p.body.type]) =
      "|".intercalate (segments (bodyFields p.body)) ++ "|" ++ p.body.type := by
    rw [String.intercalate_append_of_ne_nil hne (by simp), String.intercalate_singleton]
  unfold signingUpdates signedFields headers
  rw [List.append_assoc _ (segments _), String.intercalate_append_of_ne_nil (by simp) (by simp),
    hjoin]
  cases p.nonce <;>
    simp [String.join_append, join_bodyUpdates, String.intercalate_cons_cons,
      String.append_assoc]

/-- All that stands before the type. -/
def front (p : LdpEnvelope) : List String :=
  headers p ++ p.nonce.toList ++ segments (bodyFields p.body)

abbrev barred (strings : List String) : List Char := joined '|' (strings.map String.toList)

theorem barred_concat {strings : List String} (h : strings ≠ []) (last : String) :
    barred (strings ++ [last]) = barred strings ++ '|' :: last.toList := by
  rw [barred, List.map_append]
  exact joined_append_last _ (by simpa using h) _

theorem barred_unique {xs ys : List String} (hx : BarFree xs) (hxn : xs ≠ []) (hyn : ys ≠ [])
    (hlen : xs.length ≤ ys.length) (h : barred xs = barred ys) : xs = ys := by
  have hmap := joined_unique (clean_map_toList.mpr hx) (by simpa using hxn) (by simpa using hyn)
    (by simpa using hlen) h
  exact (List.map_inj_right fun _ _ => String.toList_inj.mp).mp hmap

theorem canon_eq_iff {p₁ p₂ : LdpEnvelope} :
    pythonCanon p₁ = pythonCanon p₂ ↔ barred (signedFields p₁) = barred (signedFields p₂) := by
  unfold pythonCanon
  rw [macInput_eq_iff, join_signingUpdates, join_signingUpdates, ← String.toList_inj,
    String.toList_intercalate, String.toList_intercalate]
  rfl

theorem barred_signedFields (p : LdpEnvelope) :
    barred (signedFields p) = barred (front p) ++ '|' :: p.body.type.toList :=
  barred_concat (by simp [headers]) _

/-- A body without signed fields leaves nothing between two bars. -/
theorem barred_front {p : LdpEnvelope} (h : p.body.type ∉ fieldTypes) :
    barred (front p) = barred (headers p ++ p.nonce.toList) ++ ['|'] := by
  unfold front
  rw [bodyFields_eq_nil h]
  exact barred_concat (by simp [headers]) ""

theorem fields_of_map {xs ys : List (Option String)} (hfilled : ∀ x ∈ xs, truthy x = true)
    (h : xs.map (·.getD "") = ys.map (·.getD "")) : xs = ys := by
  induction xs generalizing ys with
  | nil => simpa using h
  | cons x xs ih =>
      cases ys with
      | nil => simp at h
      | cons y ys =>
          obtain ⟨hhead, htail⟩ := List.cons.inj h
          have hx := hfilled x (by simp)
          have hxy : x = y := by
            cases x <;> cases y <;> simp_all [truthy]
          rw [hxy, ih (fun z hz => hfilled z (List.mem_cons_of_mem x hz)) htail]

theorem fields_of_segments {xs ys : List (Option String)} (hlen : xs.length = ys.length)
    (hfilled : ∀ x ∈ xs, truthy x = true) (h : segments xs = segments ys) : xs = ys := by
  cases xs <;> cases ys
  · rfl
  · simp at hlen
  · simp at hlen
  · exact fields_of_map hfilled h

section Determined
variable {p₁ p₂ : LdpEnvelope} (h : Determined p₁)
include h

theorem Determined.front_eq : front p₁ = headers p₁ ++ segments (bodyFields p₁.body) := by
  rw [front, h.nonce, Option.toList_none, List.append_nil]

theorem Determined.sameSigned_of_type (htype : p₁.body.type = p₂.body.type)
    (hfront : barred (front p₁) = barred (front p₂)) : SameSigned p₁ p₂ := by
  have hlen := segments_length_of_type htype
  have hlists : front p₁ = front p₂ := by
    apply barred_unique _ (by simp [front, headers]) (by simp [front, headers]) _ hfront
    · rw [h.front_eq]
      exact h.barFree
    · rw [h.front_eq, front]
      simp only [List.length_append, hlen]
      simp [headers]
  have hall := congrArg List.length hlists
  have hnonce : p₂.nonce = none := by
    rw [h.front_eq, front] at hall
    cases hn : p₂.nonce with
    | none => rfl
    | some nonce =>
        rw [hn] at hall
        simp only [List.length_append, hlen, headers, List.length_cons, List.length_nil,
          Option.toList_some] at hall
        omega
  rw [h.front_eq, front, hnonce, Option.toList_none, List.append_nil] at hlists
  obtain ⟨hheaders, hsegments⟩ := List.append_inj hlists rfl
  exact ⟨hheaders, h.nonce.trans hnonce.symm, htype,
    fields_of_segments (bodyFields_length_of_type htype) h.filled hsegments⟩

/-- The type cannot be read as a shorter one. -/
theorem Determined.not_shorter {m : List Char}
    (htype : p₁.body.type.toList = m ++ '|' :: p₂.body.type.toList) :
    barred (front p₂) ≠ barred (front p₁) ++ '|' :: m := by
  intro hfront
  have hsplit : p₁.body.type = String.ofList m ++ "|" ++ p₂.body.type := by
    rw [← String.toList_inj, toList_bar, String.toList_ofList, htype]
  obtain ⟨hfields, hempty, hends⟩ := h.type _ _ hsplit
  rw [barred_front hfields] at hfront
  rcases List.eq_nil_or_concat m with rfl | ⟨c, x, rfl⟩
  · exact hempty rfl
  · have hlast := congrArg List.getLast? hfront
    simp only [List.getLast?_concat, List.concat_eq_append, ← List.cons_append,
      ← List.append_assoc, Option.some.injEq] at hlast
    apply hends (String.ofList c)
    rw [← hlast, ← String.toList_inj]
    simp

/-- Nor as part of a longer one. -/
theorem Determined.not_longer {m : List Char}
    (htype : p₂.body.type.toList = m ++ '|' :: p₁.body.type.toList) :
    barred (front p₁) ≠ barred (front p₂) ++ '|' :: m := by
  intro hfront
  have hfields : p₂.body.type ∉ fieldTypes := by
    intro hmem
    apply fieldTypes_barFree hmem
    rw [htype]
    simp
  let longer := headers p₂ ++ p₂.nonce.toList ++ [""] ++ [String.ofList m]
  have hlonger : barred (front p₁) = barred longer := by
    have hempty : barred (headers p₂ ++ p₂.nonce.toList ++ [""]) =
      barred (headers p₂ ++ p₂.nonce.toList) ++ ['|'] := barred_concat (by simp [headers]) ""
    rw [hfront, barred_front hfields, barred_concat (by simp), hempty, String.toList_ofList]
  have hsegments : (segments (bodyFields p₁.body)).length ≤ 2 := by
    unfold bodyFields
    split_ifs <;> simp [segments]
  have hlists : headers p₁ ++ segments (bodyFields p₁.body) = longer := by
    rw [← h.front_eq]
    apply barred_unique _ (by simp [front, headers]) (by simp [longer]) _ hlonger
    · rw [h.front_eq]
      exact h.barFree
    · rw [h.front_eq]
      simp [longer, headers]
      omega
  have hrest : segments (bodyFields p₁.body) =
      p₂.nonce.toList ++ ["", String.ofList m] := by
    have hassoc : longer = headers p₂ ++ (p₂.nonce.toList ++ ["", String.ofList m]) := by
      simp [longer]
    rw [hassoc] at hlists
    exact (List.append_inj hlists rfl).2
  rw [hrest] at hsegments
  cases hn : p₂.nonce with
  | some nonce => simp [hn] at hsegments
  | none =>
      -- Only a submission has two fields, and its task id is not empty.
      rw [hn] at hrest
      match hf : bodyFields p₁.body, hrest with
      | [], hrest => simp [segments] at hrest
      | field :: fields, hrest =>
          have hfilled := h.filled field (by simp [hf])
          have hempty : field.getD "" = "" := (List.cons.inj hrest).1
          cases field <;> simp_all [truthy]

theorem Determined.sameSigned (heq : pythonCanon p₁ = pythonCanon p₂) : SameSigned p₁ p₂ := by
  rw [canon_eq_iff, barred_signedFields, barred_signedFields] at heq
  rcases two_readings_iff.mp heq with ⟨hfront, htype⟩ | ⟨m, hfront, htype⟩ | ⟨m, hfront, htype⟩
  · exact h.sameSigned_of_type (String.toList_inj.mp htype) hfront
  · exact absurd hfront (h.not_shorter htype)
  · exact absurd hfront (h.not_longer htype)

end Determined

section Unique
variable {p₁ : LdpEnvelope}
  (h : ∀ p₂, pythonCanon p₁ = pythonCanon p₂ → SameSigned p₁ p₂)
include h

/-- A nonce can be read as part of the message id. -/
theorem nonce_eq_none : p₁.nonce = none := by
  cases hn : p₁.nonce with
  | none => rfl
  | some nonce =>
      have hsame := h { p₁ with messageId := p₁.messageId ++ "|" ++ nonce, nonce := none } (by
        rw [canon_eq_iff]
        simp only [signedFields, headers, hn, Option.toList_some, Option.toList_none,
          List.cons_append, List.nil_append, barred, List.map_cons, toList_bar]
        exact (joined_merge '|' [_, _, _, _] ..).symm)
      exact hn.symm.trans hsame.nonce

/-- An empty field feeds the same bytes as a missing one. -/
theorem filled_of_unique : ∀ field ∈ bodyFields p₁.body, truthy field = true := by
  let other : Option String → Option String := fun field =>
    if truthy field = true then field else if field = none then some "" else none
  have hother : ∀ field, (other field).getD "" = field.getD "" := by
    intro field
    by_cases hfield : truthy field = true
    · simp [other, hfield]
    · rw [Bool.not_eq_true] at hfield
      by_cases hnone : field = none
      · simp [other, hnone, truthy]
      · simp [other, hnone, hfield, getD_of_not_truthy hfield]
  obtain ⟨b, htype, hfields⟩ := exists_body p₁.body ((bodyFields p₁.body).map other)
    (by simp)
  have hsegments : segments (bodyFields b) = segments (bodyFields p₁.body) := by
    rw [hfields]
    cases bodyFields p₁.body <;> simp [segments, hother]
  have hsame := h { p₁ with body := b } (by
    rw [canon_eq_iff]
    simp only [signedFields, headers, hsegments, htype])
  have hmap : (bodyFields p₁.body).map id = (bodyFields p₁.body).map other := by
    rw [List.map_id]
    exact hsame.fields.trans hfields
  intro field hmem
  have heq : field = other field := List.map_inj_left.mp hmap field hmem
  by_contra hfield
  by_cases hnone : field = none
  · simp [other, hnone, truthy] at heq
  · simp [other, hfield, hnone] at heq

/-- A bar in a header lets a part of it move into its neighbour. -/
theorem headers_barFree : BarFree (headers p₁) := by
  rw [← clean_map_toList]
  by_contra hbar
  obtain ⟨ys, hlen, hne, hjoined⟩ := exists_shifted (by simp [headers]) hbar
  obtain ⟨p₂, hheaders, hnonce, hbody⟩ := exists_envelope p₁ p₁.body ys (by
    simpa [headers] using hlen)
  have hsame := h p₂ (by
    rw [canon_eq_iff, signedFields, signedFields, hnonce, hbody]
    simp only [barred, List.append_assoc, List.map_append, hheaders, hjoined])
  exact hne (by rw [← hheaders, hsame.headers])

/-- So does one in a body field. -/
theorem segments_barFree (hn : p₁.nonce = none) :
    BarFree (segments (bodyFields p₁.body)) := by
  cases hf : bodyFields p₁.body with
  | nil => simp [segments, BarFree]
  | cons field fields =>
      rw [← clean_map_toList]
      by_contra hbar
      have hall : ¬ Clean '|' ((headers p₁ ++ segments (field :: fields)).map String.toList) := by
        intro hclean
        apply hbar
        intro l hl
        apply hclean l
        rw [List.map_append]
        exact List.mem_append_right _ hl
      obtain ⟨ys, hlen, hne, hjoined⟩ := exists_shifted (by simp [headers]) hall
      have hrest : (ys.drop 5).length = (bodyFields p₁.body).length := by
        simp [hlen, hf, headers, segments]
      obtain ⟨b, htype, hfields⟩ := exists_body p₁.body
        ((ys.drop 5).map fun l => some (String.ofList l)) (by simpa using hrest)
      obtain ⟨p₂, hheaders, hnonce, hbody⟩ := exists_envelope p₁ b (ys.take 5) (by
        simp [hlen, headers])
      have hsegments : (segments (bodyFields b)).map String.toList = ys.drop 5 := by
        rw [hfields]
        cases hd : ys.drop 5 with
        | nil => simp [hd, hf] at hrest
        | cons l ls => simp [segments, Function.comp_def]
      have hys : (headers p₂ ++ segments (bodyFields p₂.body)).map String.toList = ys := by
        rw [List.map_append, hheaders, hbody, hsegments, List.take_append_drop]
      have hsame := h p₂ (by
        rw [canon_eq_iff, signedFields, signedFields, hnonce, hn, hf, hbody, htype]
        simp only [Option.toList_none, List.append_nil, barred, List.map_append]
        rw [hheaders, hsegments, List.take_append_drop, hjoined, List.map_append])
      exact hne (by rw [← hys, ← hf, hsame.headers, hsame.fields])

/-- The type is not a part of it behind something else. -/
theorem ne_of_bar {a b : String} (hab : p₁.body.type = a ++ "|" ++ b) (p₂ : LdpEnvelope)
    (htype : p₂.body.type = b) : pythonCanon p₁ ≠ pythonCanon p₂ := by
  intro heq
  have hlen := congrArg String.length (h p₂ heq).type
  rw [hab, htype] at hlen
  simp only [String.length_append] at hlen
  have hbar : "|".length = 1 := rfl
  omega

/-- A type with a bar can be read as a shorter one behind a body field, or behind a
longer message id. -/
theorem type_of_unique {a b : String} (hab : p₁.body.type = a ++ "|" ++ b) :
    b ∉ fieldTypes ∧ a ≠ "" ∧ ∀ c, a ≠ c ++ "|" := by
  have hn := nonce_eq_none h
  have hnil : bodyFields p₁.body = [] := by
    apply bodyFields_eq_nil
    intro hmem
    apply fieldTypes_barFree hmem
    rw [hab, toList_bar]
    simp
  have hempty : segments [] = [""] := rfl
  -- The bar before the missing field goes to the message id.
  have hfield : ∀ body : LdpMessageBody, body.type = b → segments (bodyFields body) ≠ [a] := by
    intro body htype hsegments
    apply ne_of_bar h hab { p₁ with messageId := p₁.messageId ++ "|", body := body } htype
    rw [canon_eq_iff]
    simp [signedFields, headers, barred, joined, hn, hnil, hempty, hab, htype, hsegments,
      List.intercalate_cons_cons]
  have hmem : b ∉ fieldTypes := by
    intro hmem
    by_cases hsubmit : b = "TASK_SUBMIT"
    · obtain ⟨body, htype, hfields⟩ := exists_body { type := b } [some "", some a] (by
        rw [hsubmit]
        rfl)
      have hsegments : segments (bodyFields body) = ["", a] := by
        rw [hfields]
        rfl
      apply ne_of_bar h hab { p₁ with body := body } htype
      rw [canon_eq_iff]
      simp [signedFields, headers, barred, joined, hn, hnil, hempty, hab, htype, hsegments,
        List.intercalate_cons_cons]
    · have hlen : (bodyFields { type := b }).length = 1 := bodyFields_length hmem hsubmit
      obtain ⟨body, htype, hfields⟩ := exists_body { type := b } [some a] hlen.symm
      exact hfield body htype (by rw [hfields]; rfl)
  refine ⟨hmem, ?_, ?_⟩
  · rintro rfl
    exact hfield { type := b } rfl (by rw [bodyFields_eq_nil hmem, hempty])
  · rintro c rfl
    have hnone : bodyFields { type := b } = [] := bodyFields_eq_nil hmem
    apply ne_of_bar h hab
      { p₁ with messageId := p₁.messageId ++ "||" ++ c, body := { type := b } } rfl
    rw [canon_eq_iff]
    simp [signedFields, headers, barred, joined, hn, hnil, hempty, hab, hnone,
      List.intercalate_cons_cons]

theorem determined_of_unique : Determined p₁ := by
  have hn := nonce_eq_none h
  refine ⟨hn, ?_, filled_of_unique h, fun a b hab => type_of_unique h hab⟩
  intro s hs
  rcases List.mem_append.mp hs with hs | hs
  · exact headers_barFree h s hs
  · exact segments_barFree h hn s hs

end Unique

/-- In both SDKs the signing input of an envelope determines what it covers exactly when
there is no nonce and no bar in a signed string. In Python no signed field may be missing
or empty besides, and a type with a bar must not be readable as a shorter one. -/
theorem signing_input_determines_iff (e₁ : MessageTypes.LdpEnvelope) (p₁ : LdpEnvelope) :
    ((∀ e₂, SigningInput.canon e₁ = SigningInput.canon e₂ → SigningInput.SameSigned e₁ e₂) ↔
      e₁.nonce = none ∧ BarFree (SigningInput.signedStrings e₁)) ∧
    ((∀ p₂, pythonCanon p₁ = pythonCanon p₂ → SameSigned p₁ p₂) ↔ Determined p₁) := by
  refine ⟨SigningInput.canon_determines_iff e₁, determined_of_unique, ?_⟩
  intro h p₂ heq
  exact h.sameSigned heq

end LdpProtocol.PythonSigningInput
