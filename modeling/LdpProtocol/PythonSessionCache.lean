import LdpProtocol.LinkedPythonClient
import LdpProtocol.PythonQuestions

/-!
# The Python client's session cache

Any number of calls in any order, codecs registered in between, and peers that
answer what they like. An entry of the dictionary was made by one handshake at its
URL, from a card that was served there and passed the trust check, in a mode the
client could advertise. A handshake that raises has changed nothing.
-/
namespace LdpProtocol.PythonSessionCache
open InteractivePrograms InterferedRuns ConcurrentCalls TranslatedPrograms
open InteractivePrograms.Program (call_bind pure_eq pure_bind_eq uses_pure uses_throw)
open JsonValues PayloadModes EnvelopeSigning PythonMessages PythonSigning PythonIdentity
open PythonClient PythonTasks PythonQuestions
open LinkedPythonClient (Discovered validated_trusted)

abbrev Trace := List (Event ClientCall ClientCall.Answer)

/-- The questions that put nothing into the dictionary. -/
def Unsetting : ClientCall → Prop
  | .setSession _ _ => False
  | _ => True

abbrev NeverSets {α : Type} (p : ClientProgram α) : Prop := p.Uses (fun _ _ => True) Unsetting

/-- The session names this card, served where the session is opened, and keeps to the
modes. -/
structure Fits (client : LdpClient) (url : String) (document : Value) (card : LdpIdentityCard)
    (modes : List PayloadMode) (session : LdpSession) : Prop where
  discovered : Discovered client document card
  remoteUrl : session.remoteUrl = url
  remoteDelegateId : session.remoteDelegateId = card.delegateId
  trustDomain : session.trustDomain = card.trustDomain
  mode : session.payload.mode = .text ∨ session.payload.mode ∈ modes

/-- A message that was answered, and what was read off the answer. -/
def Exchanged (client : LdpClient) (hmac : Hmac) (url : String) (tr : Trace)
    (sent back : LdpEnvelope) : Prop :=
  ∃ document made, ⟨.postMessage url
      (PythonSigning.signIfConfigured hmac client.signingSecret sent).modelDump,
      .ok document⟩ ∈ tr ∧
    LdpEnvelope.modelValidate made document = some back

/-- What a session that is recorded rests on: the registry as it was read, two
answers and a card. -/
structure Founded (client : LdpClient) (hmac : Hmac) (url : String) (tr : Trace)
    (session : LdpSession) (registered : List PayloadMode) (document : Value)
    (card : LdpIdentityCard) : Prop where
  read : ⟨.registeredModes, registered⟩ ∈ tr
  greeted : ∃ hello greeting, Exchanged client hmac url tr hello greeting ∧
    hello.body = .hello client.delegateId (client.advertisedModes registered)
  proposed : ∃ propose answer sessionId, Exchanged client hmac url tr propose answer ∧
    propose.body = .sessionPropose (client.proposeConfig (client.advertisedModes registered)) ∧
    answer.body.type ≠ "SESSION_REJECT" ∧
    session.sessionId = LdpClient.acceptedId answer.body sessionId
  fetched : ⟨.getIdentity url, .ok document⟩ ∈ tr
  fits : Fits client url document card (client.advertisedModes registered) session

section Handshake
variable {client : LdpClient} {hmac : Hmac} {url : String} {tr : Trace}

theorem ordinary_unsetting : Ordinary Unsetting := ⟨trivial, trivial, trivial, trivial, trivial⟩

theorem call_neverSets {q : ClientCall} (hq : Unsetting q) :
    NeverSets (Program.call q : ClientProgram q.Answer) :=
  ⟨hq, fun _ _ => uses_pure _⟩

/-- A card that is discovered was fetched and passed the check. -/
theorem discover_done {card : LdpIdentityCard}
    (h : Along (client.discover url) tr (done (.ok card))) :
    ∃ document, ⟨.getIdentity url, .ok document⟩ ∈ tr ∧ Discovered client document card := by
  unfold LdpClient.discover at h
  simp only [call_bind, along_ask_done] at h
  obtain ⟨answer, rest, htr, hrest⟩ := h
  cases answer with
  | error text =>
      obtain ⟨_, hr⟩ := along_throw_done.mp hrest
      cases hr
  | ok document =>
      refine ⟨document, by rw [htr]; exact List.mem_cons_self, ?_⟩
      simp only [raiseForStatus, pure_bind_eq] at hrest
      rcases validated_trusted client document with ⟨identity, hd, hread⟩ | ⟨_, error, hread⟩
      · rw [hread, along_pure_done] at hrest
        rw [Except.ok.inj hrest.2]
        exact hd
      · rw [hread, along_throw_done] at hrest
        cases hrest.2

/-- The last steps of a handshake: the clock twice, then the entry. -/
theorem recorded_sets {identity : LdpIdentityCard} {sessionId : String} {mode : PayloadMode}
    {p : ClientProgram LdpSession}
    (h : Along (do
      let createdAt ← utcNow
      let lastUsed ← utcNow
      let session := client.newSession url sessionId identity mode createdAt lastUsed
      setSession url session
      pure session) tr p) {v : String} {opened : LdpSession}
    (hmem : ⟨.setSession v opened, ()⟩ ∈ tr) :
    v = url ∧ p = .pure opened ∧
      ∃ createdAt lastUsed,
        opened = client.newSession url sessionId identity mode createdAt lastUsed := by
  simp only [utcNow, setSession, call_bind] at h
  rcases along_ask.mp h with ⟨htr, _⟩ | ⟨createdAt, tr₁, htr, h₁⟩
  · rw [htr] at hmem
    cases hmem
  rcases along_ask.mp h₁ with ⟨htr₁, _⟩ | ⟨lastUsed, tr₂, htr₁, h₂⟩
  · rw [htr, htr₁] at hmem
    simp at hmem
  rcases along_ask.mp h₂ with ⟨htr₂, _⟩ | ⟨_, tr₃, htr₂, h₃⟩
  · rw [htr, htr₁, htr₂] at hmem
    simp at hmem
  · obtain ⟨htr₃, hp⟩ := along_pure.mp h₃
    rw [htr, htr₁, htr₂, htr₃] at hmem
    simp at hmem
    obtain ⟨rfl, rfl⟩ := hmem
    exact ⟨rfl, hp, createdAt, lastUsed, rfl⟩

/-- What is recorded at the end of a handshake, and only there. -/
theorem openSession_sets {sessionId : String} {advertised : List PayloadMode}
    {body : LdpMessageBody} {p : ClientProgram LdpSession}
    (h : Along (client.openSession url sessionId advertised body) tr p) {v : String}
    {opened : LdpSession} (hmem : ⟨.setSession v opened, ()⟩ ∈ tr) :
    v = url ∧ p = .pure opened ∧ opened.sessionId = LdpClient.acceptedId body sessionId ∧
      ∃ document card, ⟨.getIdentity url, .ok document⟩ ∈ tr ∧
        Fits client url document card advertised opened := by
  unfold LdpClient.openSession at h
  dsimp only at h
  split at h
  · rw [(along_throw.mp h).1] at hmem
    cases hmem
  · next hyes =>
      have hmode : body.negotiatedMode.getD .text = .text ∨
          body.negotiatedMode.getD .text ∈ advertised := by
        by_contra hcon
        exact hyes (not_or.mp hcon)
      have hdiscover : NeverSets (client.discover url) := discover_asks trivial
      obtain ⟨card, tr₁, tr₂, h₁, h₂, htr, hset⟩ := h.past hdiscover hmem id
      have hdone : Along (client.discover url) tr₁ (done (.ok card)) := h₁
      obtain ⟨document, hfetched, hd⟩ := discover_done hdone
      obtain ⟨hv, hp, createdAt, lastUsed, hopened⟩ := recorded_sets h₂ hset
      refine ⟨hv, hp, by rw [hopened]; rfl, document, card, ?_, ?_⟩
      · rw [htr]
        exact List.mem_append_left _ hfetched
      · rw [hopened]
        exact ⟨hd, rfl, rfl, rfl, hmode⟩

theorem create_body {sessionId fromId toId : String} {body : LdpMessageBody} {e : LdpEnvelope}
    (h : Along (create sessionId fromId toId body) tr (.pure e)) : e.body = body := by
  have hdone : Along (create sessionId fromId toId body) tr (done (.ok e)) := h
  unfold create uuid4 isoNow at hdone
  simp only [call_bind, pure_eq, along_ask_done, along_pure_done] at hdone
  obtain ⟨_, _, _, _, _, _, _, he⟩ := hdone
  cases he
  rfl

/-- A message that was answered is one post, and one validation of the answer. -/
theorem sendMessage_done {e back : LdpEnvelope}
    (h : Along (client.sendMessage hmac url e) tr (.pure back)) : ∃ document made,
      tr = [⟨.postMessage url
          (PythonSigning.signIfConfigured hmac client.signingSecret e).modelDump, .ok document⟩,
        ⟨.defaults, made⟩] ∧
      LdpEnvelope.modelValidate made document = some back := by
  have hdone : Along (client.sendMessage hmac url e) tr (done (.ok back)) := h
  unfold LdpClient.sendMessage at hdone
  simp only [call_bind, along_ask_done] at hdone
  obtain ⟨answer, rest, htr, hrest⟩ := hdone
  cases answer with
  | error text => cases (along_throw_done.mp hrest).2
  | ok document =>
      simp only [raiseForStatus, pure_bind_eq, along_ask_done] at hrest
      obtain ⟨made, rest₂, hrest, hread⟩ := hrest
      cases hvalid : LdpEnvelope.modelValidate made document with
      | none =>
          rw [hvalid] at hread
          cases (along_throw_done.mp hread).2
      | some read =>
          rw [hvalid] at hread
          obtain ⟨hnil, hread⟩ := along_pure_done.mp hread
          cases hread
          exact ⟨document, made, by rw [htr, hrest, hnil], hvalid⟩

theorem sendMessage_exchanged {e back : LdpEnvelope}
    (h : Along (client.sendMessage hmac url e) tr (.pure back)) :
    Exchanged client hmac url tr e back := by
  obtain ⟨document, made, htr, hvalid⟩ := sendMessage_done h
  exact ⟨document, made, by rw [htr]; exact List.mem_cons_self, hvalid⟩

theorem Exchanged.mono {sent back : LdpEnvelope} {tr' : Trace}
    (h : Exchanged client hmac url tr sent back) (hsub : tr ⊆ tr') :
    Exchanged client hmac url tr' sent back := by
  obtain ⟨document, made, hsent, hread⟩ := h
  exact ⟨document, made, hsub hsent, hread⟩

theorem proposeSession_sets {advertised : List PayloadMode} {p : ClientProgram LdpSession}
    (h : Along (client.proposeSession hmac url advertised) tr p) {v : String}
    {opened : LdpSession} (hmem : ⟨.setSession v opened, ()⟩ ∈ tr) :
    v = url ∧ p = .pure opened ∧
      (∃ propose answer sessionId, Exchanged client hmac url tr propose answer ∧
        propose.body = .sessionPropose (client.proposeConfig advertised) ∧
        answer.body.type ≠ "SESSION_REJECT" ∧
        opened.sessionId = LdpClient.acceptedId answer.body sessionId) ∧
      ∃ document card, ⟨.getIdentity url, .ok document⟩ ∈ tr ∧
        Fits client url document card advertised opened := by
  unfold LdpClient.proposeSession at h
  obtain ⟨sessionId, tr₁, rest₁, _, h₁, htr₁, hset₁⟩ :=
    h.past (call_neverSets (q := .uuid4) trivial) hmem id
  obtain ⟨propose, tr₂, rest₂, hmade, h₂, htr₂, hset₂⟩ :=
    h₁.past (create_asks ordinary_unsetting _ _ _ _) hset₁ id
  obtain ⟨answer, tr₃, rest₃, hsent, h₃, htr₃, hset₃⟩ :=
    h₂.past (sendMessage_asks ordinary_unsetting (fun _ => trivial) _) hset₂ id
  split at h₃
  · rw [(along_throw.mp h₃).1] at hset₃
    cases hset₃
  · next haccepted =>
      obtain ⟨hv, hp, hid, document, card, hfetched, hfits⟩ := openSession_sets h₃ hset₃
      refine ⟨hv, hp, ⟨propose, answer, sessionId, (sendMessage_exchanged hsent).mono ?_,
        create_body hmade, haccepted, hid⟩, document, card, ?_, hfits⟩
      · rw [htr₁, htr₂, htr₃]
        intro ev hev
        simp [hev]
      · rw [htr₁, htr₂, htr₃]
        simp [hfetched]

/-- A handshake that records a session goes on to return it. -/
theorem establishSession_sets {p : ClientProgram LdpSession}
    (h : Along (client.establishSession hmac url) tr p) {v : String} {opened : LdpSession}
    (hmem : ⟨.setSession v opened, ()⟩ ∈ tr) :
    v = url ∧ p = .pure opened ∧ ∃ registered document card,
      Founded client hmac url tr opened registered document card := by
  unfold LdpClient.establishSession registeredModes at h
  rw [call_bind] at h
  rcases along_ask.mp h with ⟨htr, _⟩ | ⟨registered, rest, htr, hrest⟩
  · rw [htr] at hmem
    cases hmem
  have hset : ⟨.setSession v opened, ()⟩ ∈ rest := by simpa [htr] using hmem
  obtain ⟨hello, tr₁, rest₁, hmade, h₁, htr₁, hset₁⟩ :=
    hrest.past (create_asks ordinary_unsetting _ _ _ _) hset id
  obtain ⟨greeting, tr₂, rest₂, hsent, h₂, htr₂, hset₂⟩ :=
    h₁.past (sendMessage_asks ordinary_unsetting (fun _ => trivial) _) hset₁ id
  obtain ⟨hv, hp, ⟨propose, answer, sessionId, hexchanged, hbody, haccepted, hid⟩, document, card,
    hfetched, hfits⟩ := proposeSession_sets h₂ hset₂
  have hgreeted : tr₂ ⊆ tr := by
    rw [htr, htr₁, htr₂]
    intro ev hev
    simp [hev]
  have hrested : rest₂ ⊆ tr := by
    rw [htr, htr₁, htr₂]
    intro ev hev
    simp [hev]
  exact ⟨hv, hp, registered, document, card, {
    read := by
      rw [htr]
      exact List.mem_cons_self
    greeted := ⟨hello, greeting, (sendMessage_exchanged hsent).mono hgreeted, create_body hmade⟩
    proposed := ⟨propose, answer, sessionId, hexchanged.mono hrested, hbody, haccepted, hid⟩
    fetched := hrested hfetched
    fits := hfits }⟩

end Handshake

/-! ## The calls of the client's user -/

abbrev TaskTrace := List (Event TaskCall TaskCall.Answer)

def Unrecording : TaskCall → Prop
  | .client q => Unsetting q
  | _ => True

abbrev NeverRecords {α : Type} (p : TaskProgram α) : Prop :=
  p.Uses (fun _ _ => True) Unrecording

/-- A question of the client's, with its answer. -/
def liftedEvent (ev : Event ClientCall ClientCall.Answer) : Event TaskCall TaskCall.Answer :=
  ⟨.client ev.1, ev.2⟩

/-- What an entry of the dictionary rests on was asked by the call that made it. -/
def Grounded (client : LdpClient) (hmac : Hmac) (url : String) (tr : TaskTrace)
    (session : LdpSession) : Prop :=
  ∃ (tr₀ : Trace) (registered : List PayloadMode) (document : Value) (card : LdpIdentityCard),
    tr₀.map liftedEvent ⊆ tr ∧ Founded client hmac url tr₀ session registered document card

section Operations
variable {fromIsoFormat : String → Option Deadline} {hmac : Hmac} {client : LdpClient}
  {url v : String} {opened : LdpSession} {tr : TaskTrace}

/-- A path through a lifted program is a path through the program. -/
theorem along_lifted {α : Type} {p : ClientProgram α} {r : TaskProgram α}
    (h : Along (lifted p) tr r) :
    ∃ (tr₀ : Trace) (p' : ClientProgram α), Along p tr₀ p' ∧ r = lifted p' ∧
      tr = tr₀.map liftedEvent := by
  obtain ⟨tr₀, p', hp', hr, hrenamed⟩ := along_translate h
  refine ⟨tr₀, p', hp', hr, ?_⟩
  clear hp' h
  induction hrenamed with
  | nil => rfl
  | cons hx _ ih =>
      obtain ⟨q, a, rfl, rfl⟩ := hx
      rw [List.map_cons, ← ih]
      rfl

theorem along_lifted_pure {α : Type} {p : ClientProgram α} {a : α}
    (h : Along (lifted p) tr (.pure a)) :
    ∃ tr₀ : Trace, Along p tr₀ (.pure a) ∧ tr = tr₀.map liftedEvent := by
  obtain ⟨tr₀, p', hp', hr, htr⟩ := along_lifted h
  cases p' with
  | pure b =>
      cases hr
      exact ⟨tr₀, hp', htr⟩
  | _ => cases hr

theorem Grounded.mono {tr' : TaskTrace} (h : Grounded client hmac url tr opened)
    (hsub : tr ⊆ tr') : Grounded client hmac url tr' opened := by
  obtain ⟨tr₀, registered, document, card, hin, hfounded⟩ := h
  exact ⟨tr₀, registered, document, card, fun ev hev => hsub (hin hev), hfounded⟩

theorem establish_records {r : TaskProgram LdpSession}
    (h : Along (lifted (client.establishSession hmac url)) tr r)
    (hmem : ⟨.client (.setSession v opened), ()⟩ ∈ tr) :
    v = url ∧ r = .pure opened ∧ Grounded client hmac url tr opened := by
  obtain ⟨tr₀, p, hp, rfl, rfl⟩ := along_lifted h
  obtain ⟨⟨q, a⟩, hev, heq⟩ := List.mem_map.mp hmem
  cases heq
  obtain ⟨rfl, rfl, registered, document, card, hfounded⟩ := establishSession_sets hp hev
  exact ⟨rfl, rfl, tr₀, registered, document, card, List.Subset.refl _, hfounded⟩

theorem getOrEstablish_records {r : TaskProgram LdpSession}
    (h : Along (getOrEstablishSession hmac client url) tr r)
    (hmem : ⟨.client (.setSession v opened), ()⟩ ∈ tr) :
    v = url ∧ Grounded client hmac url tr opened := by
  have hread : NeverRecords (getSession url) := ⟨trivial, fun _ _ => uses_pure _⟩
  obtain ⟨cached, tr₁, rest₁, _, h₁, htr₁, hset₁⟩ := h.past hread hmem id
  have hsub₁ : rest₁ ⊆ tr := by
    rw [htr₁]
    exact List.subset_append_right _ _
  cases cached with
  | none =>
      obtain ⟨hv, _, hgrounded⟩ := establish_records h₁ hset₁
      exact ⟨hv, hgrounded.mono hsub₁⟩
  | some session =>
      obtain ⟨active, tr₂, rest₂, _, h₂, htr₂, hset₂⟩ :=
        h₁.past (isActive_asks (P := Unrecording) trivial session) hset₁ id
      cases active with
      | true =>
          rw [(along_pure.mp h₂).1] at hset₂
          cases hset₂
      | false =>
          obtain ⟨hv, _, hgrounded⟩ := establish_records h₂ hset₂
          refine ⟨hv, hgrounded.mono ?_⟩
          rw [htr₂] at hsub₁
          exact fun ev hev => hsub₁ (List.mem_append_right _ hev)

theorem submitIn_neverRecords (task : TaskArguments) (session : LdpSession) :
    NeverRecords (submitIn fromIsoFormat hmac client url task session) :=
  submitIn_asks ordinary_unsetting (fun _ => trivial) (fun _ => trivial) task session

theorem submitTask_records {task : TaskArguments} {r : TaskProgram TaskReport}
    (h : Along (submitTask fromIsoFormat hmac client url task) tr r)
    (hmem : ⟨.client (.setSession v opened), ()⟩ ∈ tr) :
    v = url ∧ Grounded client hmac url tr opened := by
  unfold submitTask at h
  split at h
  · exact (h.uses (submitIn_neverRecords task _) _ hmem).elim
  · rcases h.of_bind with ⟨p, hp, _⟩ | ⟨session, tr₁, tr₂, h₁, h₂, htr⟩
    · exact getOrEstablish_records hp hmem
    · rw [htr] at hmem ⊢
      rcases List.mem_append.mp hmem with hmem | hmem
      · obtain ⟨hv, hgrounded⟩ := getOrEstablish_records h₁ hmem
        exact ⟨hv, hgrounded.mono (List.subset_append_left _ _)⟩
      · exact (h₂.uses (submitIn_neverRecords task session) _ hmem).elim

/-- Whatever a call records is recorded where it was asked to, on a card from there. -/
theorem program_records {op : Operation} {r : TaskProgram Returned}
    (h : Along (op.program fromIsoFormat hmac client) tr r)
    (hmem : ⟨.client (.setSession v opened), ()⟩ ∈ tr) : Grounded client hmac v tr opened := by
  cases op with
  | discover url =>
      have hread : NeverRecords (lifted (client.discover url)) :=
        lifted_asks (discover_asks trivial)
      exact (h.uses (hread.bind fun _ => uses_pure _) _ hmem).elim
  | registerPayloadMode mode =>
      have hreg : NeverRecords (Operation.program fromIsoFormat hmac client
          (.registerPayloadMode mode)) := ⟨trivial, fun _ _ => uses_pure _⟩
      exact (h.uses hreg _ hmem).elim
  | establishSession url =>
      obtain ⟨p, hp, _⟩ := h.of_map
      obtain ⟨rfl, _, hgrounded⟩ := establish_records hp hmem
      exact hgrounded
  | getOrEstablishSession url =>
      obtain ⟨p, hp, _⟩ := h.of_map
      obtain ⟨rfl, hgrounded⟩ := getOrEstablish_records hp hmem
      exact hgrounded
  | submitTask url task =>
      obtain ⟨p, hp, _⟩ := h.of_map
      obtain ⟨rfl, hgrounded⟩ := submitTask_records hp hmem
      exact hgrounded

end Operations

/-! ## Runs -/

section Runs
variable {fromIsoFormat : String → Option Deadline} {hmac : Hmac} {client : LdpClient}

abbrev CallConfig := Config Operation TaskCall TaskCall.Answer Failure Returned ClientState

/-- The configurations that calls lead to, from no sessions and some codecs. -/
abbrev Reached (fromIsoFormat : String → Option Deadline) (hmac : Hmac) (client : LdpClient)
    (registered : List PayloadMode) (k : CallConfig) : Prop :=
  Moves TaskCall.Meaning (Operation.program fromIsoFormat hmac client) (idle ⟨∅, registered⟩) k

/-- What an entry of the dictionary is worth. -/
structure Sound (client : LdpClient) (k : CallConfig) (url : String) (session : LdpSession) :
    Prop where
  remoteUrl : session.remoteUrl = url
  served : ∃ x ∈ k.log, ∃ document card, x.event = ⟨.client (.getIdentity url), .ok document⟩ ∧
    LdpIdentityCard.modelValidate document = some card ∧
    session.remoteDelegateId = card.delegateId ∧ session.trustDomain = card.trustDomain
  trusted : client.enforceTrustDomains = true →
    client.trustDomain.trusts session.trustDomain.name = true
  mode : session.payload.mode = .text ∨
    session.payload.mode ∈ client.config.preferredPayloadModes ∧
      isImplemented k.state.registered session.payload.mode = true

/-- An entry is what it was, but for what a use changes, or has just been recorded. -/
theorem meaning_lookup {q : TaskCall} {s t : ClientState} {a : q.Answer} {url : String}
    {session : LdpSession} (hm : TaskCall.Meaning q s a t)
    (h : t.sessions.lookup url = some session) :
    (∃ held, s.sessions.lookup url = some held ∧ Same session held) ∨
      q = .client (.setSession url session) := by
  cases q with
  | getSession v =>
      rw [hm.2] at h
      exact .inl ⟨session, h, rfl⟩
  | registerPayloadMode mode =>
      rw [show t = _ from hm] at h
      exact .inl ⟨session, h, rfl⟩
  | touch used =>
      obtain ⟨_, read, hcounted⟩ := hm
      rcases hcounted url with hsame | ⟨held, hbefore, _, hafter⟩
      · exact .inl ⟨session, hsame ▸ h, rfl⟩
      · rw [hafter] at h
        cases h
        exact .inl ⟨held, hbefore, rfl⟩
  | client q =>
      cases q with
      | setSession v opened =>
          rw [show t.sessions = s.sessions.insert v opened from
            congrArg ClientState.sessions hm] at h
          by_cases hv : url = v
          · subst hv
            rw [AList.lookup_insert] at h
            cases h
            exact .inr rfl
          · rw [AList.lookup_insert_ne hv] at h
            exact .inl ⟨session, h, rfl⟩
      | registeredModes =>
          rw [hm.2] at h
          exact .inl ⟨session, h, rfl⟩
      | _ =>
          rw [show t = s from hm] at h
          exact .inl ⟨session, h, rfl⟩

theorem Same.trans {a b c : LdpSession} (hab : Same a b) (hbc : Same b c) : Same a c := by
  rw [Same, hab, hbc]

theorem meaning_registered {q : TaskCall} {s t : ClientState} {a : q.Answer}
    (hm : TaskCall.Meaning q s a t) : s.registered ⊆ t.registered := by
  cases q with
  | getSession v => rw [hm.2]; exact List.Subset.refl _
  | touch used => rw [hm.1]; exact List.Subset.refl _
  | registerPayloadMode mode => rw [show t = _ from hm]; exact List.subset_cons_self _ _
  | client q =>
      cases q with
      | setSession v opened => rw [show t = _ from hm]; exact List.Subset.refl _
      | registeredModes => rw [hm.2]; exact List.Subset.refl _
      | _ => rw [show t = _ from hm]; exact List.Subset.refl _

theorem entry_recorded {registered : List PayloadMode} {k : CallConfig}
    (h : Reached fromIsoFormat hmac client registered k) {url : String} {session : LdpSession}
    (hheld : k.state.sessions.lookup url = some session) :
    ∃ x ∈ k.log, ∃ opened, x.event = ⟨.client (.setSession url opened), ()⟩ ∧
      Same session opened := by
  induction h generalizing session with
  | refl => simp [idle] at hheld
  | @tail k₁ k₂ _ hmove ih =>
      cases hmove with
      | start c => exact ih hheld
      | @act i c q next a t hi hm =>
          rcases meaning_lookup hm hheld with ⟨held, hbefore, hsame⟩ | hset
          · obtain ⟨x, hx, opened, hev, hopened⟩ := ih hbefore
            exact ⟨x, List.mem_append_left _ hx, opened, hev, Same.trans hsame hopened⟩
          · subst hset
            exact ⟨_, List.mem_append_right _ (List.mem_singleton_self _), session, rfl, rfl⟩

/-- No codec is ever taken out of the registry. -/
theorem registered_grows {registered : List PayloadMode} {k : CallConfig}
    (h : Reached fromIsoFormat hmac client registered k) :
    ∀ x ∈ k.log, x.before.registered ⊆ k.state.registered := by
  induction h with
  | refl => simp [idle]
  | @tail k₁ k₂ _ hmove ih =>
      cases hmove with
      | start c => exact ih
      | @act i c q next a t hi hm =>
          intro x hx
          rcases List.mem_append.mp hx with hx | hx
          · exact fun m hmode => meaning_registered hm (ih x hx hmode)
          · rw [List.mem_singleton.mp hx]
            exact meaning_registered hm

theorem isImplemented_mono {registered registered' : List PayloadMode}
    (hsub : registered ⊆ registered') {mode : PayloadMode}
    (h : isImplemented registered mode = true) : isImplemented registered' mode = true := by
  unfold isImplemented at *
  grind

theorem entry_sound {registered : List PayloadMode} {k : CallConfig}
    (h : Reached fromIsoFormat hmac client registered k) {url : String} {session : LdpSession}
    (hheld : k.state.sessions.lookup url = some session) : Sound client k url session := by
  obtain ⟨x, hx, opened, hev, hsame⟩ := entry_recorded h hheld
  have hlt := h.follows.caller x hx
  have hat : k.calls[x.caller]? = some k.calls[x.caller] := List.getElem?_eq_getElem hlt
  have hmem : ⟨.client (.setSession url opened), ()⟩ ∈ traceOf x.caller k.log :=
    mem_traceOf.mpr ⟨x, hx, rfl, hev⟩
  obtain ⟨tr₀, read, document, card, hin, hfounded⟩ :=
    program_records (h.follows.along _ _ _ hat) hmem
  have hfits := hfounded.fits
  obtain ⟨y, hy, _, hyev⟩ := mem_traceOf.mp (hin (List.mem_map_of_mem hfounded.fetched))
  obtain ⟨z, hz, _, hzev⟩ := mem_traceOf.mp (hin (List.mem_map_of_mem hfounded.read))
  obtain ⟨u, hmeant⟩ := h.meant z hz
  rw [hzev] at hmeant
  have hanswer : read = z.before.registered := hmeant.1
  have hgrown : read ⊆ k.state.registered := by
    rw [hanswer]
    exact registered_grows h z hz
  rw [hsame]
  exact {
    remoteUrl := hfits.remoteUrl
    served := ⟨y, hy, document, card, hyev, hfits.discovered.1, hfits.remoteDelegateId,
      hfits.trustDomain⟩
    trusted := by
      intro henforced
      rw [hfits.trustDomain]
      exact hfits.discovered.2 henforced
    mode := by
      rcases hfits.mode with htext | hmode
      · exact .inl htext
      · obtain ⟨hpreferred, himplemented⟩ := List.mem_filter.mp hmode
        exact .inr ⟨hpreferred, isImplemented_mono hgrown himplemented⟩ }

/-- A handshake that raises has left the dictionary alone. -/
theorem raised_unchanged {registered : List PayloadMode} {k : CallConfig}
    (h : Reached fromIsoFormat hmac client registered k) {i : ℕ} {url : String} {error : Failure}
    (hi : k.calls[i]? = some (.establishSession url, .throw error))
    {x : Entry TaskCall TaskCall.Answer ClientState} (hx : x ∈ k.log) (hcaller : x.caller = i)
    {t : ClientState} (hm : TaskCall.Meaning x.event.1 x.before x.event.2 t) :
    t.sessions = x.before.sessions := by
  obtain ⟨p, hp, hthrow⟩ := (h.follows.along i _ _ hi).of_map
  have hmem : x.event ∈ traceOf i k.log := mem_traceOf.mpr ⟨x, hx, hcaller, rfl⟩
  obtain ⟨tr₀, p₀, _, _, htr⟩ := along_lifted hp
  obtain ⟨⟨q, a⟩, _, hev⟩ := List.mem_map.mp (htr ▸ hmem)
  rw [← hev] at hm hmem
  cases q with
  | setSession v opened =>
      obtain ⟨_, hpure, _⟩ := establish_records hp hmem
      rw [hpure] at hthrow
      cases hthrow
  | registeredModes => rw [hm.2]
  | _ => rw [show t = _ from hm]

/-- Every entry of the dictionary is worth something, and a handshake that raises
leaves the dictionary as it was at each of its steps. -/
theorem session_cache {registered : List PayloadMode} {k : CallConfig}
    (h : Reached fromIsoFormat hmac client registered k) :
    (∀ url session, k.state.sessions.lookup url = some session → Sound client k url session) ∧
    ∀ (i : ℕ) (url : String) (error : Failure),
      k.calls[i]? = some (.establishSession url, done (.error error)) →
      ∀ x ∈ k.log, x.caller = i → ∀ t, TaskCall.Meaning x.event.1 x.before x.event.2 t →
        t.sessions = x.before.sessions := by
  constructor
  · intro url session hheld
    exact entry_sound h hheld
  · intro i url error hi x hx hcaller t hm
    exact raised_unchanged h hi hx hcaller hm

/-- A delegate that accepts in text, and its card. -/
def acceptance : Value :=
  (LdpEnvelope.create "m" "1970-01-01T00:00:00+00:00" "s" "ldp:b" "ldp:client:default"
    (.sessionAccept "s" .text) .text).modelDump

def plainCard : LdpIdentityCard where
  delegateId := "ldp:b"
  name := "B"
  modelFamily := "m"
  modelVersion := "1"
  trustDomain := { name := "default" }
  contextWindow := 4096

/-- The client's configurations after one handshake with that delegate. -/
theorem session_cache_plain : ∃ k session,
    Reached (fun _ => none) (fun _ _ => .empty) {} [] k ∧
      k.state.sessions.lookup "u" = some session ∧ Sound {} k "u" session := by
  let out := Program.exec (answering acceptance plainCard.modelDump ⟨"m", "t", "c", "t", "t"⟩)
    (Operation.program (fun _ => none) (fun _ _ => .empty) {} (.establishSession "u")) ⟨∅, []⟩
  have hrun : Run TaskCall.Meaning Quiet (Operation.program (fun _ => none) (fun _ _ => .empty) {}
      (.establishSession "u")) ⟨∅, []⟩ out.1 out.2.1 out.2.2 :=
    exec_run _ (answering_meaning _ _ _) _ _
  obtain ⟨steps, hmoves, _⟩ := Moves.call (idle (⟨∅, []⟩ : ClientState)) hrun
  have hheld : ∃ session, out.2.1.sessions.lookup "u" = some session := ⟨_, rfl⟩
  obtain ⟨session, hheld⟩ := hheld
  exact ⟨_, session, hmoves, hheld, (session_cache hmoves).1 "u" session hheld⟩

end Runs
end LdpProtocol.PythonSessionCache
